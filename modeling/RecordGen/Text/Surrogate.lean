/-!
Lone surrogates.

A text may hold surrogates that are no part of a pair. No character is a surrogate, so the last 2048
characters are set aside for them, one for each. Texts that hold one of these characters as itself
are not read.
-/

namespace RecordGen.Text

/-- The first surrogate. -/
def firstSurrogate : Nat := 0xD800

/-- The first of the characters that stand for lone surrogates. -/
def firstStandIn : Nat := 0x10F800

/-- Whether a character stands for a lone surrogate. -/
def isSurrogate (c : Char) : Bool :=
  firstStandIn ≤ c.toNat

/-- The character that stands for a lone surrogate, given by its code point. -/
def surrogate (code : Nat) : Char :=
  .ofNat (firstStandIn + (code - firstSurrogate))

/-- The code point of a character, or of the surrogate that it stands for. -/
def codePoint (c : Char) : Nat :=
  if isSurrogate c then firstSurrogate + (c.toNat - firstStandIn) else c.toNat

/-- A text with a lone surrogate has no encoding. -/
def isEncodable (s : String) : Bool :=
  !s.toList.any isSurrogate

end RecordGen.Text
