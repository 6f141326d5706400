import GdScribe.ClassTable.Flatten
import GdScribe.ClassTable.Reference
import GdScribe.Reference.Classes

/-!
# The built-in classes

The class table that every script starts from, with inherited entries.
-/

namespace GdScribe.ClassTable

def saved : ClassTable := ofReference Reference.classes

def builtin : ClassTable := (flatten saved).toOption.getD saved

def builtinValueTypes : List String := saved.valueTypes

end GdScribe.ClassTable
