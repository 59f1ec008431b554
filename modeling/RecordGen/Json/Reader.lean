import RecordGen.Decimal.Nearest
import RecordGen.Json.Value
import RecordGen.Text.Surrogate

/-!
Reading JSON texts.

The grammar is that of the standard with three more number words: `NaN`, `Infinity` and
`-Infinity`. A field that occurs twice keeps its first place and its last value. Integers are read
up to a number of digits, and escapes may write lone surrogates. Each reader takes the characters in
front of it and gives back the ones it leaves; of two faults in a text, the first one counts.
-/

namespace RecordGen.Json

/-- Why a text cannot be read. -/
inductive ReadFault where
  /-- The text does not follow the grammar. -/
  | malformed
  /-- An integer has more digits than are read. -/
  | longInteger
  /-- A character of a text is one of those that stand for lone surrogates. -/
  | setAside
deriving Repr, DecidableEq

namespace Reader

/-- A reader without faults of its own: what it cannot read is malformed. -/
def ofOption : Option α → Except ReadFault α
  | some x => .ok x
  | none => .error .malformed

def isSpace (c : Char) : Bool :=
  c == ' ' || c == '\t' || c == '\n' || c == '\r'

def skipSpace (cs : List Char) : List Char :=
  cs.dropWhile isSpace

/-- The rest of the text after a word it begins with. -/
def word? : List Char → List Char → Option (List Char)
  | [], cs => some cs
  | w :: ws, c :: cs => if w = c then word? ws cs else none
  | _ :: _, [] => none

def hexDigit? (c : Char) : Option Nat :=
  if c.isDigit then some (c.toNat - '0'.toNat)
  else if 'a' ≤ c ∧ c ≤ 'f' then some (c.toNat - 'a'.toNat + 10)
  else if 'A' ≤ c ∧ c ≤ 'F' then some (c.toNat - 'A'.toNat + 10)
  else none

/-- The number written by four hexadecimal digits. -/
def fourHex? : List Char → Option (Nat × List Char)
  | a :: b :: c :: d :: rest => do
    let a ← hexDigit? a
    let b ← hexDigit? b
    let c ← hexDigit? c
    let d ← hexDigit? d
    return (((a * 16 + b) * 16 + c) * 16 + d, rest)
  | _ => none

/-- The second half of a surrogate pair, if an escape that writes one comes next. -/
def lowSurrogate? : List Char → Option (Nat × List Char)
  | '\\' :: 'u' :: rest => do
    let (low, rest) ← fourHex? rest
    guard (0xDC00 ≤ low && low < 0xE000)
    return (low, rest)
  | _ => none

/-- A character that is no stand-in for a lone surrogate. -/
def itself (c : Char) : Except ReadFault Char :=
  if Text.isSurrogate c then .error .setAside else .ok c

/-- The character of a `\u` escape whose digits come next. Two escapes that form a surrogate pair
give one character. -/
def unicodeEscape (cs : List Char) : Except ReadFault (Char × List Char) := do
  let (code, rest) ← ofOption (fourHex? cs)
  if 0xD800 ≤ code && code < 0xDC00 then
    match lowSurrogate? rest with
    | some (low, rest) =>
      return (← itself (.ofNat (0x10000 + (code - 0xD800) * 0x400 + (low - 0xDC00))), rest)
    | none => return (Text.surrogate code, rest)
  else if 0xDC00 ≤ code && code < 0xE000 then return (Text.surrogate code, rest)
  else return (.ofNat code, rest)

/-- The character an escape of one letter stands for. -/
def simpleEscape? (c : Char) : Option Char :=
  if c = '"' ∨ c = '\\' ∨ c = '/' then some c
  else if c = 'b' then some '\x08'
  else if c = 'f' then some '\x0c'
  else if c = 'n' then some '\n'
  else if c = 'r' then some '\r'
  else if c = 't' then some '\t'
  else none

/-- The rest of a text literal up to its closing quote; `read` holds the characters so far, last one
first. Control characters must be escaped. -/
def textBody : Nat → List Char → List Char → Except ReadFault (String × List Char)
  | 0, _, _ => .error .malformed
  | fuel + 1, read, cs =>
    match cs with
    | [] => .error .malformed
    | '"' :: rest => .ok (.ofList read.reverse, rest)
    | '\\' :: 'u' :: rest => do
      let (c, rest) ← unicodeEscape rest
      textBody fuel (c :: read) rest
    | '\\' :: e :: rest => do
      let c ← ofOption (simpleEscape? e)
      textBody fuel (c :: read) rest
    | c :: rest => do
      if c.toNat < 0x20 then throw .malformed
      textBody fuel ((← itself c) :: read) rest

def text (cs : List Char) : Except ReadFault (String × List Char) :=
  textBody (cs.length + 1) [] cs

/-- The longest run of digits in front. -/
def digits (cs : List Char) : List Char × List Char :=
  (cs.takeWhile Char.isDigit, cs.dropWhile Char.isDigit)

/-- The digits of a fraction, if a point and a digit come next. -/
def fraction (cs : List Char) : Option (List Char) × List Char :=
  match cs with
  | '.' :: rest =>
    let (ds, after) := digits rest
    if ds.isEmpty then (none, cs) else (some ds, after)
  | _ => (none, cs)

/-- The exponent, if a complete one comes next. -/
def exponent (cs : List Char) : Option Int × List Char :=
  match cs with
  | e :: rest =>
    if e = 'e' ∨ e = 'E' then
      let (negative, unsigned) := match rest with
        | '-' :: more => (true, more)
        | '+' :: more => (false, more)
        | _ => (false, rest)
      let (ds, after) := digits unsigned
      if ds.isEmpty then (none, cs)
      else
        let n : Int := Decimal.digitsValue ds
        (some (if negative then -n else n), after)
    else (none, cs)
  | [] => (none, cs)

/-- A number without its sign: an integer unless a fraction or an exponent follows. A number that
begins with zero has no second digit before the point. -/
def number (negative : Bool) (cs : List Char) : Except ReadFault (Json × List Char) :=
  let (whole, rest) := match cs with
    | '0' :: rest => (['0'], rest)
    | _ => digits cs
  if whole.isEmpty then .error .malformed
  else
    let (fractionDigits, rest) := fraction rest
    let (power, rest) := exponent rest
    match fractionDigits, power with
    | none, none =>
      if Decimal.integerDigits < whole.length then .error .longInteger
      else
        let n : Int := Decimal.digitsValue whole
        .ok (.integer (if negative then -n else n), rest)
    | _, _ =>
      let f := fractionDigits.getD []
      let x := Decimal.nearest (whole ++ f) (power.getD 0 - f.length)
      .ok (.decimal (if negative then -x else x), rest)

/-- A word, which stands for a value. -/
def wordFor (v : Json) (word cs : List Char) : Except ReadFault (Json × List Char) :=
  (ofOption (word? word cs)).map fun rest => (v, rest)

mutual

/-- A value; no white space stands in front of it. -/
def value : Nat → List Char → Except ReadFault (Json × List Char)
  | 0, _ => .error .malformed
  | fuel + 1, cs =>
    match cs with
    | [] => .error .malformed
    | '"' :: rest => (text rest).map fun (s, rest) => (.text s, rest)
    | '[' :: rest =>
      match skipSpace rest with
      | ']' :: rest => .ok (.list [], rest)
      | rest => (items fuel rest).map fun (vs, rest) => (.list vs, rest)
    | '{' :: rest =>
      match skipSpace rest with
      | '}' :: rest => .ok (.object [], rest)
      | rest => (fields fuel [] rest).map fun (fs, rest) => (.object fs, rest)
    | 'n' :: rest => wordFor .null ['u', 'l', 'l'] rest
    | 't' :: rest => wordFor (.bool true) ['r', 'u', 'e'] rest
    | 'f' :: rest => wordFor (.bool false) ['a', 'l', 's', 'e'] rest
    | 'N' :: rest => wordFor (.decimal (0 / 0)) ['a', 'N'] rest
    | 'I' :: rest => wordFor (.decimal (1 / 0)) ['n', 'f', 'i', 'n', 'i', 't', 'y'] rest
    | '-' :: 'I' :: rest =>
      wordFor (.decimal (-(1 / 0))) ['n', 'f', 'i', 'n', 'i', 't', 'y'] rest
    | '-' :: rest => number true rest
    | _ => number false cs

/-- The items of a list that is not empty, with its closing bracket. -/
def items : Nat → List Char → Except ReadFault (List Json × List Char)
  | 0, _ => .error .malformed
  | fuel + 1, cs => do
    let (v, rest) ← value fuel cs
    match skipSpace rest with
    | ']' :: rest => return ([v], rest)
    | ',' :: rest =>
      let (vs, rest) ← items fuel (skipSpace rest)
      return (v :: vs, rest)
    | _ => throw .malformed

/-- The fields of an object that is not empty, with its closing brace, added to those `read`. -/
def fields : Nat → List (String × Json) → List Char →
    Except ReadFault (List (String × Json) × List Char)
  | 0, _, _ => .error .malformed
  | fuel + 1, read, cs =>
    match cs with
    | '"' :: rest => do
      let (k, rest) ← text rest
      match skipSpace rest with
      | ':' :: rest =>
        let (v, rest) ← value fuel (skipSpace rest)
        let read := Table.insertEntry k v read
        match skipSpace rest with
        | '}' :: rest => return (read, rest)
        | ',' :: rest => fields fuel read (skipSpace rest)
        | _ => throw .malformed
      | _ => throw .malformed
    | _ => .error .malformed

end

end Reader

/-- Reads a text that holds one value and white space around it. -/
def read (s : String) : Except ReadFault Json := do
  let cs := s.toList
  let (v, rest) ← Reader.value (2 * cs.length + 2) (Reader.skipSpace cs)
  if (Reader.skipSpace rest).isEmpty then return v else throw .malformed

end RecordGen.Json
