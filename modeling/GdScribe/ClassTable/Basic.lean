import GdScribe.Table
import GdScribe.Text.Edit

/-!
# The class table

What is known of classes: their base class and the types of their members, methods, constants and
enumerators. A type is a name; `none` stands for a type that is not known or for no value at all.

* `Ty`, `Ty.orElse`: types, and the first of two that says something.
* `ClassInfo`, `ClassTable`: one class, and all classes by name.
* `signalType`, `enumType`: the types recorded for signals and enumerators.
-/

namespace GdScribe

abbrev Ty := Option String

namespace Ty

def known : Ty → Bool
  | some s => !s.isEmpty
  | none => false

def orElse (a b : Ty) : Ty := if a.known then a else b

def endsWith (t : Ty) (ending : String) : Bool :=
  match t with
  | some s => Text.endsWith s ending
  | none => false

end Ty

def signalType (name : String) : String := name ++ "signal"

def enumType (name : String) : String := name ++ "enum"

/-- The type under a name in a table of types; a missing name has no type. -/
def Table.ty (t : Table Ty) (name : String) : Ty := (t.find? name).join

/-- What is known of a class. -/
structure ClassInfo where
  base : Option String := none
  members : Table Ty := {}
  methods : Table Ty := {}
  constants : Table Ty := {}
  enums : Table Ty := {}
  deriving DecidableEq, Repr, Inhabited

abbrev ClassTable := Table ClassInfo

namespace ClassTable

def globalScope : String := "@GlobalScope"

def info (t : ClassTable) (name : String) : ClassInfo := (t.find? name).getD {}

def globals (t : ClassTable) : ClassInfo := t.info globalScope

/-- The base class of a class, or `Object` if the base is not known. -/
def parent (t : ClassTable) (name : String) : ClassInfo :=
  match (t.info name).base.bind t.find? with
  | some c => c
  | none => t.info "Object"

/-- Makes sure that a class is known; a new one gets the given base. -/
def declare (t : ClassTable) (name base : String) : ClassTable :=
  if t.contains name then t else t.put name { base := some base }

def update (t : ClassTable) (name : String) (f : ClassInfo → ClassInfo) : ClassTable :=
  t.put name (f (t.info name))

end ClassTable

end GdScribe
