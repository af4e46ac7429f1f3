/-!
Tables: values under distinct keys, in the order in which the keys were first put.
-/

namespace VisualNovel

abbrev Table (κ β : Type) := List (κ × β)

namespace Table

variable {κ β : Type} [BEq κ]

def get? (t : Table κ β) (key : κ) : Option β := (t.find? fun (k, _) => k == key).map (·.2)

def has (t : Table κ β) (key : κ) : Bool := t.any fun (k, _) => k == key

/-- The table with a value under a key; a key that is there keeps its place. -/
def put (t : Table κ β) (key : κ) (value : β) : Table κ β :=
  if t.has key then t.map fun (k, old) => if k == key then (k, value) else (k, old)
  else t ++ [(key, value)]

def erase (t : Table κ β) (key : κ) : Table κ β := t.filter fun (k, _) => !(k == key)

/-- The table with the value under a key changed. -/
def change (t : Table κ β) (key : κ) (f : β → β) : Table κ β :=
  t.map fun (k, old) => if k == key then (k, f old) else (k, old)

def values (t : Table κ β) : List β := t.map (·.2)

end Table

end VisualNovel
