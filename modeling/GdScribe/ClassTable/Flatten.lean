import GdScribe.ClassTable.Basic

/-!
# Inheritance by merging

A saved class table lists each class with its own entries only. `ClassTable.flatten` adds to each
class the entries of its base class, so that one look-up finds inherited entries too. Classes are
taken in an order that puts a base before the classes derived from it.

* `weights`: numbers that grow with the classes derived from a class.
* `parentsFirst`: the classes by falling weight.
* `flatten`: the merged table; where both have a name the base class's type counts.
* `valueTypes`: the names of the types that are values, from the enumerators of `Variant`.
-/

namespace GdScribe.ClassTable

/-- Why a saved class table cannot be merged. -/
inductive FlattenFault where
  | unknownClass (name : String)
  | parentAfterChild
  deriving DecidableEq, Repr

def addWeight (weights : Table Nat) (c : String × ClassInfo) : Table Nat :=
  let weights := if weights.contains c.1 then weights else weights.put c.1 0
  match c.2.base with
  | none => weights
  | some base =>
    if base.isEmpty then weights
    else
      let points := (weights.find? c.1).getD 0 + 1
      weights.put base ((weights.find? base).getD 0 + points)

def rounds : Nat := 10

def weights (classes : List (String × ClassInfo)) : Table Nat :=
  (List.range rounds).foldl (fun w _ => classes.foldl addWeight w) {}

/-- The classes by falling weight; of two classes of one weight the later one comes first. -/
def parentsFirst (classes : List (String × ClassInfo)) : List (String × ClassInfo) :=
  let w := weights classes
  let keyed := classes.map fun c => ((w.find? c.1).getD 0, c)
  ((keyed.mergeSort fun a b => a.1 ≤ b.1).map (·.2)).reverse

/-- Whether every class that follows has its base, if that is a class of the table, among the
classes `before` it. -/
def parentsPrecede (t : ClassTable) (before : List String) : List (String × ClassInfo) → Bool
  | [] => true
  | (name, info) :: rest =>
    (match info.base with
      | some base => base.isEmpty || !t.contains base || before.contains base
      | none => true) && parentsPrecede t (name :: before) rest

def ClassInfo.inherit (info base : ClassInfo) : ClassInfo :=
  { info with
    methods := info.methods.merge base.methods
    members := info.members.merge base.members
    constants := info.constants.merge base.constants
    enums := info.enums.merge base.enums }

/-- Merges the base classes into the listed classes, one after another. -/
def mergeParents (t : ClassTable) : List (String × ClassInfo) → Except FlattenFault ClassTable
  | [] => .ok t
  | (name, info) :: rest =>
    match info.base with
    | none => mergeParents t rest
    | some base =>
      if base.isEmpty then mergeParents t rest
      else match t.find? base with
        | none => .error (.unknownClass base)
        | some parent => mergeParents (t.update name fun c => ClassInfo.inherit c parent) rest

def isValueTypeName (name : String) : Bool :=
  Text.startsWith name "TYPE_" && !Text.endsWith name "MAX"

def valueTypes (t : ClassTable) : List String :=
  ((t.info "Variant").enums.keys).filter isValueTypeName

def flatten (t : ClassTable) : Except FlattenFault ClassTable :=
  if !t.contains "Variant" then .error (.unknownClass "Variant")
  else
    let order := parentsFirst t.entries
    if parentsPrecede t [] order then mergeParents t order else .error .parentAfterChild

end GdScribe.ClassTable
