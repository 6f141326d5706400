/-!
# Insertion-ordered tables

A `Table α` maps names to values and remembers the order in which the names were first put in.

* `Table.find?`, `Table.contains`: look-up by name.
* `Table.put`: a known name keeps its place, a new one goes to the end.
* `Table.merge`: the second table's values win, its new names follow the first table's own.
-/

namespace GdScribe

/-- Named values in the order in which their names were first put in. -/
structure Table (α : Type) where
  entries : List (String × α) := []
  deriving DecidableEq, Repr, Inhabited

namespace Table

variable {α β : Type}

def find (name : String) : List (String × α) → Option α
  | [] => none
  | (k, v) :: rest => if k = name then some v else find name rest

/-- The entries with the value of `name` replaced where it stands, or added at the end. -/
def set (name : String) (value : α) : List (String × α) → List (String × α)
  | [] => [(name, value)]
  | (k, v) :: rest => if k = name then (k, value) :: rest else (k, v) :: set name value rest

def empty : Table α := ⟨[]⟩

def find? (t : Table α) (name : String) : Option α := find name t.entries

def contains (t : Table α) (name : String) : Bool := (t.find? name).isSome

def keys (t : Table α) : List String := t.entries.map (·.1)

def values (t : Table α) : List α := t.entries.map (·.2)

def isEmpty (t : Table α) : Bool := t.entries.isEmpty

/-- Gives `name` a value: a known name keeps its place, a new one goes to the end. -/
def put (t : Table α) (name : String) (value : α) : Table α := ⟨set name value t.entries⟩

def erase (t : Table α) (name : String) : Table α := ⟨t.entries.filter (·.1 != name)⟩

/-- The table of a list of pairs, where a later pair of the same name wins. -/
def ofList (xs : List (String × α)) : Table α := xs.foldl (fun t e => t.put e.1 e.2) ⟨[]⟩

def map (f : α → β) (t : Table α) : Table β := ⟨t.entries.map fun e => (e.1, f e.2)⟩

/-- The first table's names with the second table's values where it has them, then the names
that only the second table has. -/
def merge (t u : Table α) : Table α :=
  ⟨t.entries.map (fun e => (e.1, (u.find? e.1).getD e.2)) ++
    u.entries.filter (fun e => !t.contains e.1)⟩

/-- The entries of `t` that are new or different with respect to `old`. -/
def changesSince [DecidableEq α] (t old : Table α) : Table α :=
  ⟨t.entries.filter fun e => old.find? e.1 ≠ some e.2⟩

end Table

end GdScribe
