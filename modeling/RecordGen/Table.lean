/-!
Tables: finite maps whose entries keep the order in which their keys were first inserted.
-/

namespace RecordGen

/-- Pairs of a key and its value, one pair for each key. -/
structure Table (κ : Type) (β : Type) where
  entries : List (κ × β)
deriving Inhabited, Repr

namespace Table

variable {κ β : Type} [DecidableEq κ]

def empty : Table κ β := ⟨[]⟩

instance : EmptyCollection (Table κ β) := ⟨empty⟩

/-- Replaces the value of a key where it stands, or adds the key at the end. -/
def insertEntry (k : κ) (v : β) : List (κ × β) → List (κ × β)
  | [] => [(k, v)]
  | (k', v') :: rest =>
    if k' = k then (k, v) :: rest else (k', v') :: insertEntry k v rest

def insert (t : Table κ β) (k : κ) (v : β) : Table κ β :=
  ⟨insertEntry k v t.entries⟩

/-- The value of the first entry with the key. -/
def findEntry (k : κ) : List (κ × β) → Option β
  | [] => none
  | (k', v) :: rest => if k' = k then some v else findEntry k rest

def find? (t : Table κ β) (k : κ) : Option β :=
  findEntry k t.entries

def keys (t : Table κ β) : List κ :=
  t.entries.map (·.1)

@[simp] theorem find?_empty (k : κ) : (∅ : Table κ β).find? k = none := rfl

theorem findEntry_insertEntry (k k' : κ) (v : β) (es : List (κ × β)) :
    findEntry k' (insertEntry k v es) = if k = k' then some v else findEntry k' es := by
  induction es with
  | nil => simp [insertEntry, findEntry]
  | cons e es ih =>
    obtain ⟨j, w⟩ := e
    grind [insertEntry, findEntry]

/-- After an insertion the key has the new value and every other key its old one. -/
@[simp] theorem find?_insert (t : Table κ β) (k k' : κ) (v : β) :
    (t.insert k v).find? k' = if k = k' then some v else t.find? k' :=
  findEntry_insertEntry k k' v t.entries

/-- A new key goes to the end; the order of the old ones never changes. -/
theorem keys_insert (t : Table κ β) (k : κ) (v : β) :
    (t.insert k v).keys = if k ∈ t.keys then t.keys else t.keys ++ [k] := by
  obtain ⟨es⟩ := t
  simp only [insert, keys]
  induction es with
  | nil => simp [insertEntry]
  | cons e es ih =>
    obtain ⟨j, w⟩ := e
    grind [insertEntry]

end Table

end RecordGen
