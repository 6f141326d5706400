import GdScribe.Text.Case

/-!
# Settings of the targets

What both targets have to know beside the script: whether real numbers have single precision, and
which types are values.
-/

namespace GdScribe.Target

structure Settings where
  useFloats : Bool := false
  valueTypes : List String := []
  deriving Repr

/-- The enumerator of a value type without its mark and underscores. -/
def plainTypeName (enumerator : String) : String :=
  Text.replaceAll (Text.replaceFirst enumerator "TYPE_" "") "_" ""

def Settings.valueType? (s : Settings) (type : String) : Option String :=
  let name := Text.upper type
  s.valueTypes.find? fun v => plainTypeName v == name

end GdScribe.Target
