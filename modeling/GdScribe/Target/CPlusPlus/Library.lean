import GdScribe.Target.CPlusPlus.Naming
import GdScribe.Target.Library

/-!
# Library names in C++

Names of the script language's library that C++ writes in another way: export annotations,
constants and global functions.
-/

namespace GdScribe.CPlusPlus

open Target

/-- The hint for a path to the node that is edited, whose name is cut in the script language. -/
def editedNode : String := "node_path_to_edited_nod"

def exportHints : List (String × String) :=
  hintNames.map fun n =>
    ("export_" ++ n, "PROPERTY_HINT_" ++ Text.upper n ++ if n = editedNode then "E" else "")

def variableNames : List (String × String) :=
  [("self", "this"), ("PI", "Math::Pi"), ("TAU", "Math::Tau"), ("INF", "Math::Inf"),
   ("NAN", "Math::NaN")]

def functionNames : List (String × String) := functionTable "Math::" "UtilityFunctions::" id
  [("preload", "/* preload has no equivalent, add a 'ResourcePreloader' Node in your scene */"),
   ("weakref", "UtilityFunctions::weakref(obj)"),
   ("instance_from_id", "UtilityFunctions::instance_from_id"),
   ("is_instance_id_valid", "UtilityFunctions::is_instance_id_valid"),
   ("is_instance_valid", "UtilityFunctions::is_instance_valid"),
   ("error_string", "Error::to_string"), ("fmod", "Math::mod"), ("is_nan", "double::is_na_n"),
   ("is_same", "ReferenceEquals::reference_equals"), ("type_string", "Variant::to_string"),
   ("typeof", "Variant::variant_type")]

def variableName (name : String) : String := (variableNames.lookup name).getD name

def callName (caller : Ty) (name : String) : String :=
  if caller = some ClassTable.globalScope then (functionNames.lookup name).getD name else name

def exportHint (name : String) : String := (exportHints.lookup name).getD (Text.upper name)

end GdScribe.CPlusPlus
