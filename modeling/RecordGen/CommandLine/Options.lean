/-!
The options and arguments of a command line.

A word that starts with a dash is an option. A long option may carry its value after an equals sign,
short ones may be written together with the value of the last one right behind it, and any other
value is the next word. Two dashes end the options. All other words are arguments, wherever they
stand.
-/

namespace RecordGen.CommandLine

inductive Key where
  | config
  | language
  | withers
  | builderMark
  | nullabilityMarker
  | package
  | verbose
  | help
deriving Repr, DecidableEq

namespace Key

/-- The long form, without its dashes. -/
def long : Key → String
  | config => "config"
  | language => "language"
  | withers => "withers"
  | builderMark => "builder-annotation"
  | nullabilityMarker => "nullability-marker"
  | package => "package"
  | verbose => "verbose"
  | help => "help"

def short? : Key → Option Char
  | config => some 'c'
  | language => some 'l'
  | package => some 'p'
  | verbose => some 'v'
  | withers | builderMark | nullabilityMarker | help => none

/-- Whether a value follows the option. -/
def takesValue : Key → Bool
  | config | language | nullabilityMarker | package => true
  | withers | builderMark | verbose | help => false

def all : List Key :=
  [config, language, withers, builderMark, nullabilityMarker, package, verbose, help]

def ofLong? (name : List Char) : Option Key :=
  all.find? fun k => k.long.toList == name

def ofShort? (c : Char) : Option Key :=
  all.find? fun k => k.short? == some c

end Key

/-- The words of a command line, sorted: values by option, flags, and arguments in order. -/
structure Words where
  values : List (Key × String) := []
  flags : List Key := []
  arguments : List String := []
deriving Repr, Inhabited

namespace Words

/-- The value given last. -/
def value? (w : Words) (k : Key) : Option String :=
  (w.values.find? (·.1 == k)).map (·.2)

def has (w : Words) (k : Key) : Bool :=
  w.flags.contains k

def addValue (w : Words) (k : Key) (v : String) : Words :=
  { w with values := (k, v) :: w.values }

def addFlag (w : Words) (k : Key) : Words :=
  { w with flags := k :: w.flags }

/-- What a word of options leaves open. -/
inductive Pending where
  | nothing
  /-- The option needs the next word as its value. -/
  | valueOf (k : Key)
deriving Repr, DecidableEq

/-- A long option, given without its dashes. -/
def addLong (w : Words) (word : List Char) : Option (Words × Pending) :=
  let name := word.takeWhile (· ≠ '=')
  let given := (word.dropWhile (· ≠ '=')).tail?
  (Key.ofLong? name).bind fun k =>
    match k.takesValue, given with
    | true, some v => some (w.addValue k (.ofList v), .nothing)
    | true, none => some (w, .valueOf k)
    | false, none => some (w.addFlag k, .nothing)
    | false, some _ => none

/-- Short options written together. -/
def addShort (w : Words) : List Char → Option (Words × Pending)
  | [] => some (w, .nothing)
  | c :: rest =>
    (Key.ofShort? c).bind fun k =>
      if k.takesValue then
        if rest.isEmpty then some (w, .valueOf k) else some (w.addValue k (.ofList rest), .nothing)
      else addShort (w.addFlag k) rest

/-- Adds words in order; nothing if one of them is no option or lacks its value. -/
def read (w : Words) : Pending → List String → Option Words
  | .nothing, [] => some w
  | .valueOf _, [] => none
  | .valueOf k, word :: rest => read (w.addValue k word) .nothing rest
  | .nothing, word :: rest =>
    match word.toList with
    | ['-', '-'] => some { w with arguments := w.arguments ++ rest }
    | '-' :: '-' :: name => (w.addLong name).bind fun (w, pending) => read w pending rest
    | '-' :: c :: cs => (w.addShort (c :: cs)).bind fun (w, pending) => read w pending rest
    | _ => read { w with arguments := w.arguments ++ [word] } .nothing rest

end Words

end RecordGen.CommandLine
