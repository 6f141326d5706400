import GdScribe.Target.CPlusPlus.Draft

/-!
# Expressions in C++

The language's own ways to write expressions. Members of objects behind a pointer are read and
written through their accessors.
-/

namespace GdScribe.CPlusPlus

open Target

def stringLiteral (value : String) : String :=
  "\"" ++ Text.replaceAll (Text.replaceAll value "\n" "\\\n") "\"" "\\\"" ++ "\""

def collection (name contents : String) : PlusM Unit := do
  put name
  if contents.isEmpty then put "()"
  else
    Page.shift 1
    put (" \x7b/* initializer lists are unsupported */ " ++ contents ++ " \x7d")
    Page.shift (-1)

def putListed {α : Type} (text : α → PlusM String) : List α → PlusM Unit
  | [] => return
  | [a] => do put (← text a)
  | a :: as => do
    put (← text a)
    put ", "
    putListed text as

def lambda (s : Settings) (params : Params) (body : String) : PlusM Unit := do
  put "[]("
  putListed (paramText s) params.entries
  put ") "
  Page.write (Dialect.lambdaBody body)

def bareName (role : NameRole) (name : String) : PlusM Unit :=
  match role with
  | .singleton | .property => put name
  | .variable => put (variableName name)

def accessSign (s : Settings) (a : Access) : String :=
  if a.singleton then "::get_singleton()->" else if isPointer s a.owner then "->" else "."

def usesAccessor (s : Settings) (a : Access) : Bool :=
  !a.name.isEmpty && a.member.known && !Text.startsWith (a.member.getD "") "signal" &&
    isPointer s a.owner

def access (s : Settings) (a : Access) : PlusM Unit := do
  put (accessSign s a)
  put (if usesAccessor s a then getterName a.name ++ "()" else a.name)

def assign (s : Settings) (a : Access) (op : String) (value : PlusM Unit) : PlusM Unit := do
  put (accessSign s a)
  if usesAccessor s a then
    let note := if op = "=" then ""
      else " /* " ++ getterName a.name ++ "() */ " ++ Text.replaceAll op "=" "" ++ " "
    put (setterName a.name ++ "(" ++ note)
    value
    put ")"
  else
    put (a.name ++ " " ++ op ++ " ")
    value

def dialect (s : Settings) : Dialect State where
  put := put
  openScope := openScope
  string := stringLiteral
  array := collection "Array"
  dictionary := collection "Dictionary"
  lambda := lambda s
  name := bareName
  constant name := "::" ++ name
  access := access s
  assign := assign s
  callName := callName
  usesNew := isPointer s
  isType type e := do
    put ("(bool)dynamic_cast<" ++ type.getD "None" ++ "*>(&")
    e
    put ")"
  emitHead signal := "emit_signal(\"" ++ signal ++ "\""
  connect signal handler := do
    put ("connect(\"" ++ signal ++ "\", ")
    handler
    put ")"

/-- The head of a loop that counts, from the written arguments of `range`. -/
def countingHead (type name : String) (args : List String) : String :=
  let (first, last, step) := match args with
    | [] => ("0", "", "1")
    | [stop] => ("0", Text.strip stop, "1")
    | [start, stop] => (Text.strip start, stop, "1")
    | [start, stop, step] => (Text.strip start, stop, Text.strip step)
    | start :: stop :: _ => (Text.strip start, stop, "1")
  "for(" ++ type ++ " " ++ name ++ "=" ++ first ++ "; " ++ name ++ "<" ++ last ++ "; " ++
    name ++ "+=" ++ step ++ ")"

/-- Writes the head of a loop. What starts with `range` is taken for a call of that function. -/
def forHead (s : Settings) (name type : String) (sequence : Expr) : PlusM Unit := do
  let text ← Page.onPage ((dialect s).expr sequence)
  let type ← typeText s (some type)
  if Text.startsWith text "range" then
    let inner := Text.dropEnd (Text.replaceFirst text "range(" "") 1
    put (countingHead type name (splitArguments inner))
  else put ("for(" ++ type ++ " " ++ name ++ " : " ++ text ++ ")")

def await (object signal : String) : PlusM Unit :=
  let object := Text.replaceAll object "self" "this"
  let signal := Text.replaceLast (Text.replaceLast signal "get_" "" 1) "()" "" 1
  put ("/* await " ++ object ++ "->" ++ signal ++ "; */ // no equivalent to await in c++ !")

end GdScribe.CPlusPlus
