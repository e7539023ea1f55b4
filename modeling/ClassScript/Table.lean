/-!
# Tables in insertion order

A table is a list of keys with their values. Putting a value under a key that is already present
replaces the value and leaves the key in its place; a new key goes to the end.
-/

namespace ClassScript

abbrev Table (κ : Type) (α : Type) := List (κ × α)

namespace Table

variable {κ α : Type} [DecidableEq κ]

def get? (k : κ) : Table κ α → Option α
  | [] => none
  | (k', v) :: rest => if k' = k then some v else get? k rest

/-- Changes what is under a key, `none` standing for an absent key. -/
def alter (k : κ) (f : Option α → α) : Table κ α → Table κ α
  | [] => [(k, f none)]
  | (k', v) :: rest => if k' = k then (k', f (some v)) :: rest else (k', v) :: alter k f rest

def put (k : κ) (v : α) (t : Table κ α) : Table κ α := alter k (fun _ ↦ v) t

omit [DecidableEq κ] in
def keys (t : Table κ α) : List κ := t.map Prod.fst

def ofList (entries : List (κ × α)) : Table κ α :=
  entries.foldl (fun t e ↦ put e.1 e.2 t) []

end Table

end ClassScript
