import GdScribe.Target.CSharp.Naming
import GdScribe.Target.Library

/-!
# Library names in C#

Names of the script language's library that C# writes in another way: export annotations,
constants and global functions.
-/

namespace GdScribe.CSharp

open Target

/-- Hints that are not written in Pascal case. -/
def hintSpellings : List (String × String) :=
  [("layers_2d_render", "Layers2DRender"), ("layers_2d_physics", "Layers2DPhysics"),
   ("layers_2d_navigation", "Layers2DNavigation"), ("layers_3d_render", "Layers3DRender"),
   ("layers_3d_physics", "Layers3DPhysics"), ("layers_3d_navigation", "Layers3DNavigation"),
   ("resource_type", "RessourceType"), ("node_path_to_edited_nod", "NodePathToEditedNode"),
   ("int_is_objectid", "IntIsObjectId")]

def exportHints : List (String × String) :=
  hintNames.map fun n => ("export_" ++ n, "Export(PropertyHint." ++ (hintSpellings.lookup n).getD (pascal n))

def variableNames : List (String × String) :=
  [("self", "this"), ("PI", "Mathf.Pi"), ("TAU", "Mathf.Tau"), ("INF", "Mathf.Inf"),
   ("NAN", "Mathf.NaN"), ("TYPE_NIL", "null"), ("TYPE_OBJECT", "typeof(Godot.Object)"),
   ("TYPE_BOOL", "typeof(bool)"), ("TYPE_INT", "typeof(int)"), ("TYPE_REAL", "typeof(double)"),
   ("TYPE_RID", "typeof(RID)"), ("TYPE_STRING", "typeof(string)")]

def functionNames : List (String × String) := functionTable "Mathf." "GD." pascal
  [("range", "GD.Range"),
   ("preload", "/* preload has no equivalent, add a 'ResourcePreloader' Node in your scene */"),
   ("weakref", "GodotObject.WeakRef(obj)"), ("instance_from_id", "GodotObject.InstanceFromId"),
   ("is_instance_id_valid", "GodotObject.IsInstanceIdValid"),
   ("is_instance_valid", "GodotObject.IsInstanceValid"),
   ("assert", "System.Diagnostics.Debug.Assert"), ("convert", "GD.Convert"),
   ("error_string", "Error.ToString"), ("fmod", "/* no equivalent function, use operator % */"),
   ("get_stack", "System.Environment.StackTrace"), ("is_nan", "double.IsNaN"),
   ("is_same", "ReferenceEquals"), ("type_exists", "ClassDB.ClassExists"),
   ("type_string", "Variant.Type.ToString"), ("typeof", "Variant.VariantType")]

def variableName (s : Settings) (name : String) : String :=
  match variableNames.lookup name with
  | some n => n
  | none =>
    if s.valueTypes.contains name then
      "typeof(" ++ pascal (Text.lower (Text.replaceAll name "TYPE_" "")) ++ ")"
    else name

def callName (caller : Ty) (name : String) : String :=
  pascal <|
    if caller = some ClassTable.globalScope then (functionNames.lookup name).getD name
    else if name = "has" then
      if caller = some "Array" then "Contains"
      else if caller = some "Dictionary" then "ContainsKey"
      else name
    else name

end GdScribe.CSharp
