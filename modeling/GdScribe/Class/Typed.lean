import GdScribe.Grammar.Value
import GdScribe.Table

/-!
# Classes with typed fields

A class has fields with types, and may extend another one, which does not give it more fields. An
object is made from one value for each field.

* `TypedClass`: a class with its fields.
* `Form`, `Object`: what is to be made, and what has been made.
* `make`: makes an object. Objects inside others are made first, from left to right.
-/

namespace GdScribe.Class

open Grammar (Value)

inductive FieldType where
  | int
  | text
  | real
  | bool
  | list
  | record
  | object (name : String)
  deriving DecidableEq, Repr, Inhabited

def FieldType.named : String → FieldType
  | "int" => .int
  | "str" => .text
  | "float" => .real
  | "bool" => .bool
  | "list" => .list
  | "dict" => .record
  | name => .object name

def FieldType.describe : FieldType → String
  | .int => "<class 'int'>"
  | .text => "<class 'str'>"
  | .real => "<class 'float'>"
  | .bool => "<class 'bool'>"
  | .list => "<class 'list'>"
  | .record => "<class 'dict'>"
  | .object name => "<class 'nodes." ++ name ++ "'>"

/-- A class with its own fields. -/
structure TypedClass where
  base : Option String := none
  fields : Table FieldType := {}
  deriving Inhabited

abbrev Classes := Table TypedClass

/-- What is to be made: a plain value, or an object of a class. -/
inductive Form where
  | plain (v : Value)
  | make (className : String) (args : List Form)
  deriving Inhabited

inductive Object where
  | plain (v : Value)
  | object (className : String) (fields : List (String × Object))
  deriving Inhabited

/-- Why an object cannot be made. -/
inductive Fault where
  | unknownClass (name : String)
  | wrongCount (expected : Nat)
  | wrongType (field : String) (type : FieldType)
  deriving DecidableEq, Repr, Inhabited

namespace Fault

def message : Fault → String
  | .unknownClass name => "module 'nodes' has no attribute " ++ Text.quoted name
  | .wrongCount n => "Expected " ++ toString n ++ " arguments"
  | .wrongType field type => field ++ " argument must be " ++ type.describe

end Fault

namespace Classes

/-- Whether a class is another one or extends it; the first argument bounds the steps. -/
def extendsWithin (cs : Classes) (other : String) : Nat → String → Bool
  | 0, _ => false
  | n + 1, name =>
    name == other ||
      (((cs.find? name).bind (·.base)).map (cs.extendsWithin other n)).getD false

def isA (cs : Classes) (name other : String) : Bool :=
  cs.extendsWithin other (cs.entries.length + 1) name

/-- Whether something made fits a type. A truth value counts as a whole number. -/
def fits (cs : Classes) : FieldType → Object → Bool
  | .int, .plain (.number _) | .int, .plain (.bool _) | .text, .plain (.text _)
  | .real, .plain (.real _) | .bool, .plain (.bool _) | .list, .plain (.list _)
  | .record, .plain (.record _) => true
  | .object name, .object className _ => cs.isA className name
  | _, _ => false

def check (cs : Classes) : List (String × FieldType) → List Object →
    Except Fault (List (String × Object))
  | (field, type) :: fields, value :: values => do
    if let .object name := type then
      if !cs.contains name then throw (.unknownClass name)
    if !cs.fits type value then throw (.wrongType field type)
    return (field, value) :: (← cs.check fields values)
  | _, _ => return []

def assemble (cs : Classes) (className : String) (values : List Object) : Except Fault Object := do
  match cs.find? className with
  | none => throw (.unknownClass className)
  | some c =>
    let fields := c.fields.entries
    if fields.length ≠ values.length then throw (.wrongCount fields.length)
    return .object className (← cs.check fields values)

mutual
def make (cs : Classes) : Form → Except Fault Object
  | .plain v => .ok (.plain v)
  | .make className args => do cs.assemble className (← cs.makeAll args)

def makeAll (cs : Classes) : List Form → Except Fault (List Object)
  | [] => .ok []
  | f :: rest => do return (← cs.make f) :: (← cs.makeAll rest)
end

end Classes

end GdScribe.Class
