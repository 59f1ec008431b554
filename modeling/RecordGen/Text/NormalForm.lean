import RecordGen.Text.CombiningClass
import RecordGen.Text.Composite
import RecordGen.Text.Replacement

/-!
The normal form of names: compatibility decomposition followed by canonical composition (form KC of
the Unicode standard, version 14).

Two names that differ only in how their characters are encoded have one normal form. It is computed
in three steps: every character is replaced by what it is made of, marks are put in the order of
their classes, and characters that belong together are composed. The tables hold the characters of
identifiers, so the form is that of identifiers.
-/

namespace RecordGen.Text

/-- What a character is made of. The first of the two characters of a composite may be a composite
again; `steps` bounds how often. -/
def decomposed : Nat → Char → List Char
  | 0, c => [c]
  | steps + 1, c =>
    match compositeParts? c.toNat with
    | some (a, b) => decomposed steps (.ofNat a) ++ decomposed steps (.ofNat b)
    | none =>
      match replacement? c.toNat with
      | some cs => cs.map Char.ofNat
      | none => [c]

/-- A letter takes up to three marks one after the other, and may itself have a replacement. -/
def compositeDepth : Nat := 4

/-- Puts a mark behind the marks of lower classes that a text begins with. -/
def insertMark (c : Char) : List Char → List Char
  | [] => [c]
  | d :: rest =>
    if 0 < combiningClass d ∧ combiningClass d < combiningClass c then d :: insertMark c rest
    else c :: d :: rest

/-- The text with the marks of each cluster in the order of their classes. -/
def orderMarks : List Char → List Char
  | [] => []
  | c :: rest => insertMark c (orderMarks rest)

theorem insertMark_perm (c : Char) (s : List Char) : (insertMark c s).Perm (c :: s) := by
  induction s with
  | nil => exact .refl _
  | cons d rest ih =>
    unfold insertMark
    split
    · exact (ih.cons d).trans (.swap c d rest)
    · exact .refl _

/-- Ordering the marks loses none. -/
theorem orderMarks_perm (s : List Char) : (orderMarks s).Perm s := by
  induction s with
  | nil => exact .refl _
  | cons c rest ih => exact (insertMark_perm c _).trans (ih.cons c)

/-- Whether the marks between a character and one further on keep the two apart: the last of them is
of the class of that one or of a higher class. -/
def isBlocked (between : List Char) (c : Char) : Bool :=
  match between.head? with
  | none => false
  | some m => combiningClass c ≤ combiningClass m

/-- Composes a text whose cluster began with `base`; `between` holds the marks since then that stay
by themselves, the last one first. -/
def composeAfter (base : Char) (between : List Char) : List Char → List Char
  | [] => base :: between.reverse
  | c :: rest =>
    match if isBlocked between c then none else composite? base.toNat c.toNat with
    | some d => composeAfter (.ofNat d) between rest
    | none =>
      if combiningClass c = 0 then base :: between.reverse ++ composeAfter c [] rest
      else composeAfter base (c :: between) rest

def compose : List Char → List Char
  | [] => []
  | c :: rest => composeAfter c [] rest

/-- The characters of a name in normal form. -/
def normalized (s : List Char) : List Char :=
  compose (orderMarks (s.flatMap (decomposed compositeDepth)))

/-- The normal form of a name. A name of ASCII characters is in normal form. -/
def normalForm (name : String) : String :=
  if name.toList.all fun c => c.toNat < 0x80 then name else .ofList (normalized name.toList)

end RecordGen.Text
