import GdScribe.Pattern.Notation
import GdScribe.Text.Quoted

/-!
# Why a script cannot be converted

The causes that end the conversion of a script, and how each one is reported.
-/

namespace GdScribe

/-- Why the conversion of a script ends early. -/
inductive Fault where
  /-- The reader asks for more after the end of the script than it can ever get. -/
  | endless
  | noToken
  | unknownEntry (name : String)
  | untypedArray
  | noAccessor
  | emptyName
  | noHandler
  | notALevel (text : String)
  | pattern (f : Pattern.Fault)
  deriving DecidableEq, Repr, Inhabited

namespace Fault

def kind : Fault → String
  | .endless => "RecursionError"
  | .noToken => "AttributeError"
  | .unknownEntry _ => "KeyError"
  | .untypedArray | .noAccessor => "TypeError"
  | .emptyName | .noHandler | .pattern (.unknownName _) => "IndexError"
  | .notALevel _ => "ValueError"
  | .pattern .tooOften => "OverflowError"
  | .pattern _ => "error"

def message? : Fault → Option String
  | .unknownEntry name => some (Text.quoted name)
  | .notALevel text => some ("invalid literal for int() with base 10: " ++ Text.quoted text)
  | _ => none

end Fault

end GdScribe
