import GdScribe.ClassTable.Basic
import GdScribe.Path
import GdScribe.Text.CharClass

/-!
# Class tables from class documents

A class document lists a class's methods, members, constants and signals. Documents are read one
after another into a class table.

* A constant's type is guessed from its value: an integer, or the name before a parenthesis.
* A constant of an enumeration is also recorded as an enumerator of the class that owns it.
* A signal is recorded as a member.
* The classes of numbers and truth values are passed over, and six functions that have no
  document are added to the global scope.
-/

namespace GdScribe

/-- A constant of a class document. -/
structure ConstantDoc where
  name : String
  value : Option String := none
  enumeration : Option String := none
  deriving Repr

/-- A class document. A method or member comes with its type. -/
structure ClassDoc where
  name : String
  inherits : Option String := none
  methods : List (String × Ty) := []
  members : List (String × Ty) := []
  constants : List ConstantDoc := []
  signals : List String := []
  deriving Repr

namespace ClassDoc

/-- Why documents cannot be read. -/
inductive Fault where
  | noValue
  | tooManyParts
  | noGlobalScope
  deriving DecidableEq, Repr

def constantType (value : String) : String :=
  let digits := value.toList.dropWhile (· == '-')
  if !digits.isEmpty && digits.all CharClass.isDigit then "int"
  else (Text.splitUpTo value "(" 1).headD ""

def enumOwner (className enumeration : String) : Except Fault (String × String) :=
  match Text.split enumeration "." with
  | [owner, name] => .ok (owner, name)
  | [name] => .ok (className, name)
  | _ => .error .tooManyParts

def addConstant (className : String) (t : ClassTable) (c : ConstantDoc) :
    Except Fault ClassTable := do
  let some value := c.value | .error .noValue
  let t := t.update className fun info =>
    { info with constants := info.constants.put c.name (some (constantType value)) }
  match c.enumeration with
  | none => return t
  | some e =>
    if e.isEmpty then return t
    let (owner, name) ← enumOwner className e
    return t.update owner fun info =>
      { info with enums := info.enums.put c.name (some (enumType name)) }

def nativeTypes : List String := ["float", "int", "bool"]

def putAll (t : Table Ty) (entries : List (String × Ty)) : Table Ty :=
  entries.foldl (fun t e => t.put e.1 e.2) t

def read (t : ClassTable) (d : ClassDoc) : Except Fault ClassTable := do
  if nativeTypes.contains d.name then return t
  let t := t.update d.name fun info =>
    { info with
      base := d.inherits
      methods := putAll info.methods d.methods
      members := putAll info.members d.members }
  let t ← d.constants.foldlM (addConstant d.name) t
  return t.update d.name fun info =>
    { info with members := putAll info.members (d.signals.map fun s => (s, some (signalType s))) }

def extraFunctions : List (String × Ty) :=
  [("range", some "int[]"), ("load", some "Resource"), ("preload", some "Resource"),
   ("convert", some "Variant"), ("get_stack", some "Array"), ("assert", some "void")]

def doneMessage : String := "updated godot type definitions"

def isDocumentPath (path : String) : Bool := Path.hasExtension path ".xml"

end ClassDoc

def ClassTable.ofDocs (docs : List ClassDoc) : Except ClassDoc.Fault ClassTable := do
  let t ← docs.foldlM ClassDoc.read {}
  if !t.contains ClassTable.globalScope then .error .noGlobalScope
  else return t.update ClassTable.globalScope fun info =>
    { info with methods := ClassDoc.putAll info.methods ClassDoc.extraFunctions }

end GdScribe
