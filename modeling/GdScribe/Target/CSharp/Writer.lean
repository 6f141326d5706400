import GdScribe.Pattern.Template
import GdScribe.Target.CSharp.Library
import GdScribe.Target.Dialect

/-!
# Writing C#

The target that writes a script as C# classes.

* `State`: the current class, the assignments that wait for the `_Ready` method, and the result.
* `dialect`: the language's own ways to write expressions.
* `writer`: the target.
-/

namespace GdScribe.CSharp

open Target

/-- What the target knows besides its pages. -/
structure State where
  className : String := ""
  onready : Table (List String) := {}
  unnamedEnums : Nat := 0
  initText : String := ""
  result : String := ""
  deriving Inhabited

/-- Notes an assignment that waits for the `_Ready` method of the current class. -/
def State.delay (o : State) (assignment : String) : State :=
  let waiting := (o.onready.find? o.className).getD []
  { o with onready := o.onready.put o.className (waiting ++ [assignment]) }

abbrev SharpM := PageM State

def put (text : String) : SharpM Unit := do
  let text := Page.indented (← Page.level) text
  Page.write text
  Page.traceText text

def openScope : SharpM Unit := do
  Page.trace "UpScope"
  put "\n\x7b"
  Page.shift 1

def closeScope : SharpM Unit := do
  Page.trace "DownScope"
  Page.shift (-1)
  put "\n\x7d"

def stringLiteral (value : String) : String :=
  if value.toList.contains '\n' then "@\"" ++ value ++ "\""
  else "\"" ++ Text.replaceAll value "\"" "\\\"" ++ "\""

/-- The access to a constant; upper case names are put into Pascal case. -/
def constantAccess (name : String) : String :=
  "." ++ if Text.isUpper name then pascal (Text.lower name) else name

def typeText (s : Settings) (type : Ty) : SharpM String := return typeName s (← Page.classes) type

def paramText (s : Settings) (p : String × Ty) : SharpM String :=
  return (← typeText s p.2) ++ " " ++ p.1

def putListed {α : Type} (text : α → SharpM String) : List α → SharpM Unit
  | [] => return
  | [a] => do put (← text a)
  | a :: as => do
    put (← text a)
    put ", "
    putListed text as

def lambda (s : Settings) (params : Params) (body : String) : SharpM Unit := do
  put "("
  putListed (paramText s) params.entries
  put ") =>"
  Page.write (Dialect.lambdaBody body)

def bareName (s : Settings) (role : NameRole) (name : String) : SharpM Unit := do
  match role with
  | .singleton => put (← typeText s (some name))
  | .property => put (pascal name)
  | .variable => put (variableName s name)

def dialect (s : Settings) : Dialect State where
  put := put
  openScope := openScope
  string := stringLiteral
  array items := do
    put "new Array\x7b"
    put items
    put "\x7d"
  dictionary entries := do
    put "new Dictionary\x7b"
    put entries
    put "\x7d"
  lambda := lambda s
  name := bareName s
  constant := constantAccess
  access a := put ("." ++ pascal a.name)
  assign a op value := do
    put ("." ++ pascal a.name ++ " " ++ op ++ " ")
    value
  callName := callName
  usesNew _ := true
  isType type e := do
    e
    put (" is " ++ (← typeText s type))
  emitHead signal := "EmitSignal(\"" ++ pascal signal ++ "\""
  connect signal handler := do
    put (pascal signal ++ " += ")
    handler

def defineClass (s : Settings) (name base : String) (isTool isMain : Bool) : SharpM Unit := do
  if isTool then put "[Tool]\n"
  if isMain then put "[GlobalClass]\n"
  put ("public partial class " ++ name ++ " : " ++ (← typeText s (some base)))
  openScope
  put "\n"

def enumName (name : String) : SharpM String := do
  let n := (← Page.own).unnamedEnums
  if name.isEmpty then
    Page.modifyOwn fun o => { o with unnamedEnums := n + 1 }
    return "Enum" ++ toString n
  else return name

def enumeration (s : Settings) (name : String) (values : Params) (inits : Table Expr) :
    SharpM Unit := do
  let texts ← (dialect s).enumerators inits values.keys
  let name ← enumName name
  put ("public enum " ++ name ++ " \x7b" ++ String.intercalate ", " texts ++ "\x7d")

def markerText (name args : String) : String :=
  match exportHints.lookup name with
  | some hint =>
    if args.isEmpty then "[" ++ hint ++ "]" else "[" ++ hint ++ ", \"" ++ args ++ "\")]"
  | none =>
    if args.isEmpty then "[" ++ pascal name ++ "]" else "[" ++ pascal name ++ "(\"" ++ args ++ "\")]"

def exposure (name : String) (override : Bool) : SharpM String :=
  match name.toList with
  | [] => throw .emptyName
  | c :: _ => return if c = '_' ∧ ¬ override then "protected" else "public"

def initialText (s : Settings) : Option Expr → SharpM String
  | some e => Page.onPage ((dialect s).assignment e)
  | none => return ""

/-- Starts a property. The initial value waits for `_ready`, or is written at once if no accessors
follow. -/
def property (s : Settings) (p : Property) (accessors : Bool) : SharpM Unit := do
  let exposed ← exposure p.name false
  let modifier := if p.constant then "const " else if p.static then "static " else ""
  put (exposed ++ " " ++ modifier ++ (← typeText s (some p.type)) ++ " " ++ pascal p.name)
  let text ← initialText s p.init
  Page.modifyOwn fun o =>
    { if p.init.isSome && p.onready then o.delay (pascal p.name ++ text) else o with initText := text }
  if accessors then
    Page.openPage
    openScope
    put "\n"
  else if !p.onready then Page.write text

/-- Replaces a name where characters that belong to no word stand on both sides. A character
between two occurrences counts for the first one only. `skip` counts the characters of an
occurrence that are still to be passed. -/
def replaceNameFrom (name new : List Char) : Nat → List Char → List Char → List Char
  | _, done, [] => done.reverse
  | skip + 1, done, _ :: rest => replaceNameFrom name new skip done rest
  | 0, done, c :: rest =>
    match rest.drop name.length with
    | after :: _ =>
      if !CharClass.isWord c && name.isPrefixOf rest && !CharClass.isWord after then
        replaceNameFrom name new (name.length + 1) (after :: (new.reverse ++ c :: done)) rest
      else replaceNameFrom name new 0 (c :: done) rest
    | [] => replaceNameFrom name new 0 (c :: done) rest

def replaceName (code name new : String) : String :=
  String.ofList (replaceNameFrom name.toList new.toList 0 [] code.toList)

/-- Replaces what a name stands for as a pattern, between characters that belong to no word, by
what `new` stands for as a template. -/
def replacePattern (code name new : String) : Except Pattern.Fault String :=
  Pattern.replaceWritten ("(\\W)" ++ name ++ "(\\W)") ("\\1" ++ new ++ "\\2") code

/-- Whether a name is a word, which as a pattern or a template stands for itself only. -/
def isWordName (name : String) : Bool := name.toList.all CharClass.isWord

def hasPrivate (name : String) : SharpM Bool := do
  let d ← get
  return (d.classes.info d.pages.own.className).members.contains (privateName name)

/-- The code of an accessor, with the field behind the property in the place of its name. A name
that is no word is taken for a pattern. -/
def accessorCode (name code : String) : SharpM String := do
  if ← hasPrivate name then return code
  let shown := pascal name
  if isWordName shown then return replaceName code shown (privateName shown)
  match replacePattern code shown (privateName shown) with
  | .ok code => return code
  | .error f => throw (.pattern f)

def getter (name code : String) : SharpM Unit := do
  put "get"
  Page.write (← accessorCode name code)

def setter (name value code : String) : SharpM Unit := do
  put "set"
  Page.write (Text.replaceAll (← accessorCode name code) value "value")

def accessor (p : Property) (a : Accessor) : SharpM Unit :=
  match a with
  | .getterMethod m => put ("get => " ++ pascal m ++ "();\n")
  | .setterMethod m => put ("set => " ++ pascal m ++ "(value);\n")
  | .getter code => getter p.name code
  | .setter value code => setter p.name value code

/-- The accessor that is missing beside the others: it reads or writes the field directly. -/
def missingAccessor (name : String) (hasSetter : Bool) : SharpM Unit := do
  if hasSetter then getter name (" \x7b return " ++ pascal name ++ "; \x7d")
  else setter name "value" (" \x7b " ++ pascal name ++ " = value; \x7d")
  put "\n"

/-- Closes the scope of the accessors, which a method as the last one leaves open. -/
def closeAccessors (last : Accessor) : SharpM Unit := do
  if last.isMethod then
    Page.shift (-1)
    put "\n\x7d"

/-- The code of a property with the field behind it, unless the script declares that itself. -/
def withField (s : Settings) (p : Property) (code : String) : SharpM String := do
  if ← hasPrivate p.name then return code
  else
    let field := "\x7d\n" ++ Text.tabs (← Page.level) ++ "private " ++
      (← typeText s (some p.type)) ++ " " ++ pascal (privateName p.name) ++
      (← Page.own).initText ++ ";\n"
    return closeWith code field

/-- The code of a property with the accessor that is missing, if one is. -/
def withMissing (p : Property) (accessors : List Accessor) (code : String) : SharpM String := do
  let hasSetter := accessors.any Accessor.sets
  let hasGetter := accessors.any (!·.sets)
  if hasSetter && hasGetter then return code
  else
    let text ← Page.onPage (missingAccessor p.name hasSetter)
    return closeWith code ("\t" ++ text ++ "\x7d")

/-- Ends a property with accessors: the field behind it and a missing accessor are added. -/
def endProperty (s : Settings) (p : Property) (accessors : List Accessor) : SharpM Unit := do
  match accessors.getLast? with
  | none => throw .noAccessor
  | some last =>
    closeAccessors last
    let code ← Page.takePage
    let code ← withField s p code
    let code ← withMissing p accessors code
    Page.write code

def methodParam (s : Settings) (inits : Table Expr) (p : String × Ty) : SharpM Unit := do
  put (← paramText s p)
  if let some e := inits.find? p.1 then (dialect s).assignment e

def methodCode (m : Method) : SharpM String :=
  if m.code.isEmpty then Page.onPage (put "\n\x7b\n\x7d") else return m.code

/-- Writes a method. The assignments that wait for `_ready` are put at the start of its body. -/
def method (s : Settings) (m : Method) : SharpM Unit := do
  let code ← methodCode m
  let exposed ← exposure m.name m.override
  put (exposed ++ " " ++ (if m.override then "override " else "") ++
    (if m.static then "static " else "") ++ (← typeText s m.returns) ++ " " ++ pascal m.name ++ "(")
  (dialect s).eachListed (methodParam s m.inits) m.params.entries
  put ")"
  let own ← Page.own
  match if m.name = "_ready" then own.onready.find? own.className else none with
  | some statements =>
    Page.modifyOwn fun o => { o with onready := o.onready.erase o.className }
    Page.write (Dialect.withFirstStatements (← Page.level) statements code)
  | none => Page.write code

def signal (s : Settings) (name : String) (params : Params) : SharpM Unit := do
  let texts ← params.entries.mapM (paramText s)
  put "[Signal]\n"
  put ("public delegate void " ++ pascal name ++ "EventHandler(" ++
    String.intercalate ", " texts ++ ");")

/-- Ends a class. Assignments that still wait get a `_Ready` method. -/
def endClass (s : Settings) (name : String) : SharpM Unit := do
  if (← Page.own).onready.contains name then method s { name := "_ready", override := true }

def closeScopes : Nat → SharpM Unit
  | 0 => return
  | n + 1 => do
    closeScope
    closeScopes n

def scriptHeader : String := "using Godot;\nusing Godot.Collections;"

def maxLineEnds : Nat := 3

def endScript (s : Settings) : SharpM Unit := do
  endClass s (← Page.own).className
  Page.flush
  closeScopes (← Page.level).toNat
  let page := (← get).pages.page
  Page.modifyOwn fun o => { o with result := scriptHeader ++ tidy maxLineEnds page }

def await (object signal : String) : SharpM Unit :=
  put ("await ToSignal(" ++ (if object = "self" then "this" else object) ++ ", \"" ++
    pascal signal ++ "\");")

def serve (s : Settings) : Request → SharpM Unit
  | .put text => put text
  | .comment text => put ("//" ++ text)
  | .longComment text => put ("/*" ++ text ++ "*/")
  | .indent => Page.shift 1
  | .dedent => Page.shift (-1)
  | .openPage => Page.openPage
  | .openScope => openScope
  | .closeScope => closeScope
  | .enterClass name => Page.modifyOwn fun o => { o with className := name }
  | .defineClass name base isTool isMain => defineClass s name base isTool isMain
  | .endClass name => endClass s name
  | .endScript => endScript s
  | .enumeration name values inits => enumeration s name values inits
  | .marker name args _ spacing => do
    put (markerText name args)
    Page.write (if spacing.isEmpty then " " else spacing)
  | .property p accessors => property s p accessors
  | .accessor p a => accessor p a
  | .endProperty p accessors => endProperty s p accessors
  | .localVariable _ name init => do
    put ("var " ++ name)
    if let some e := init then (dialect s).assignment e
  | .method m => method s m
  | .signal name params => signal s name params
  | .assignment e => (dialect s).assignment e
  | .endStatement => put ";"
  | .expr e => (dialect s).expr e
  | .arrayItem e => (dialect s).arrayItem e
  | .dictionaryItem k v => (dialect s).dictionaryItem k v
  | .ifHead e => (dialect s).between "if(" e ")"
  | .elifHead e => (dialect s).between "else if(" e ")"
  | .elseHead => put "else"
  | .whileHead e => (dialect s).between "while(" e ")"
  | .forHead name type e => (dialect s).between ("foreach(" ++ type ++ " " ++ name ++ " in ") e ")"
  | .breakStatement => put "break;"
  | .continueStatement => put "continue;"
  | .returnHead e => (dialect s).returnHead e
  | .await object signal => await object signal
  | .matchHead byJump => (dialect s).matchHead byJump
  | .matchSubject byJump => (dialect s).matchSubject byJump
  | .matchCase byJump comparison pattern guard code =>
    (dialect s).matchCase byJump comparison pattern guard code

def writer (s : Settings) : Writer (Pages State) := ⟨serve s, Page.takePage⟩

def start : Pages State := { own := {} }

end GdScribe.CSharp
