import GdScribe.ClassTable.Basic
import GdScribe.Target.Settings

/-!
# Names and types in C++

* `typeConstant?`, `variantType`: the constant of a value type.
* `isPointer`: whether values of a type are reached through a pointer.
* `typeName`, `typeUses`: the spelling of a type and the classes it mentions.
* `includeLine`: the header that declares a class.
-/

namespace GdScribe.CPlusPlus

open Target

/-- The constant of a value type; enumerators are integers and typed arrays are arrays. -/
def typeConstant? (s : Settings) (type : String) : Option String :=
  s.valueType? (if Text.endsWith type "enum" then "int"
    else if Text.endsWith type "[]" then "Array" else type)

def isPointer (s : Settings) (type : Ty) : Bool :=
  match type with
  | some t => !t.isEmpty && (typeConstant? s t).isNone
  | none => false

def variantType (s : Settings) (type : String) : String :=
  "Variant::" ++ match typeConstant? s type with
    | some c => Text.replaceFirst c "TYPE_" ""
    | none => "OBJECT"

inductive Spelling where
  | plain (text : String)
  | reference (parts : List String)

def spelling (s : Settings) : Ty → Spelling
  | none => .plain "void"
  | some type =>
    if type = "Variant" then .plain type
    else if type = "string" then .plain "String"
    else if Text.endsWith type "[]" then .plain "Array"
    else if Text.endsWith type "enum" then
      .plain (Text.replaceAll (Text.dropEnd type 4) "." "::")
    else if type = "float" ∧ ¬ s.useFloats then .plain "double"
    else if (typeConstant? s type).isSome then .plain type
    else .reference (Text.split type ".")

def typeName (s : Settings) (type : Ty) : String :=
  match spelling s type with
  | .plain text => text
  | .reference parts => "Ref<" ++ String.intercalate "::" parts ++ ">"

/-- The known classes among the last two parts of a type's name, which need a header. -/
def typeUses (s : Settings) (t : ClassTable) (type : Ty) : List String :=
  match spelling s type with
  | .plain _ => []
  | .reference parts => (parts.reverse.take 2).filter t.contains

/-- The name with an underscore before each capital but the first character, in lower case. -/
def snake (name : String) : String :=
  let step := fun (acc : String) (c : Char) =>
    if c.isUpper ∧ ¬ acc.isEmpty then (acc.push '_').push c else acc.push c
  Text.lower (name.toList.foldl step "")

def includeLine (name : String) : String :=
  "#include <godot_cpp/classes/" ++
    Text.replaceAll (Text.replaceAll (snake name) "2_d" "2d") "3_d" "3d" ++ ".hpp>"

def setterName (name : String) : String := "set_" ++ name
def getterName (name : String) : String := "get_" ++ name

end GdScribe.CPlusPlus
