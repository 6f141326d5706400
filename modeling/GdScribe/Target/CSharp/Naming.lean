import GdScribe.ClassTable.Basic
import GdScribe.Target.Settings

/-!
# Names and types in C#

* `pascal`: the spelling of members, methods and properties.
* `privateName`: the name of a property's backing field.
* `typeName`: the spelling of a type.
-/

namespace GdScribe.CSharp

open Target

/-- How many underscores a name starts with; a name of underscores only counts as none. -/
def leadingUnderscores (name : String) : Nat :=
  let n := (name.toList.takeWhile (· == '_')).length
  if n = name.length then 0 else n

/-- The name with its words joined and capitalised; underscores at the start stay, and a name of
upper case words is left alone. -/
def pascal (name : String) : String :=
  let parts := Text.split name "_"
  if parts.all Text.isUpper then name
  else Text.times "_" (leadingUnderscores name) ++ String.join (parts.map Text.capitalize)

def privateName (name : String) : String := "_" ++ name

def isValueType (s : Settings) (type : String) : Bool :=
  (s.valueType? type).isSome && type != "Object"

def typeName (s : Settings) (t : ClassTable) : Ty → String
  | none => "void"
  | some type =>
    if Text.endsWith type "[]" then "Array<" ++ Text.dropEnd type 2 ++ ">"
    else if Text.endsWith type "enum" then Text.dropEnd type 4
    else if type = "float" ∧ ¬ s.useFloats then "double"
    else if isValueType s type then type
    else if t.contains ((Text.split type ".").getLast?.getD "") then "Godot." ++ type
    else type

end GdScribe.CSharp
