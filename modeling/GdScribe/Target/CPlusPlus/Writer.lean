import GdScribe.Target.CPlusPlus.Phrase

/-!
# Writing C++

The target that writes a script as the header and the implementation of C++ classes, with the
bindings that make their members known to the engine.

* `method`, `property`: declarations in the header and definitions in the implementation.
* `bindings`: the code that binds methods, enumerators, properties and signals.
* `endScript`: the header and the implementation.
* `writer`: the target.
-/

namespace GdScribe.CPlusPlus

open Target

def updateClass (f : ClassInfo → ClassInfo) : PlusM Unit :=
  modify fun d => { d with classes := d.classes.update d.pages.own.className f }

def classInfo : PlusM ClassInfo := do
  let d ← get
  return d.classes.info d.pages.own.className

def memberType (name : String) : PlusM Ty := do
  match (← classInfo).members.find? name with
  | some t => return t
  | none => throw (.unknownEntry name)

def defineClass (name base : String) : PlusM Unit := do
  Page.modifyOwn (·.use [base])
  Page.modifyOwn fun o => { o with drafts := o.drafts.put name { name := name } }
  redraft (·.add ("class " ++ name ++ " : public " ++ base ++ " \x7b\n\tGDCLASS(" ++ name ++ ", " ++
    base ++ ");\npublic:\n"))

def enumeration (s : Settings) (name : String) (values : Params) (inits : Table Expr) :
    PlusM Unit := do
  let texts ← (dialect s).enumerators inits values.keys
  redraft fun c => c.toPublic.add
    ("\tenum " ++ name ++ " \x7b" ++ String.intercalate ", " texts ++ "\x7d;")

/-- A parameter in a declaration, with its default value. -/
def declaredParam (s : Settings) (inits : Table Expr) (p : String × Ty) : PlusM String := do
  let text ← paramText s p
  match inits.find? p.1 with
  | some e => return text ++ " = " ++ (← Page.onPage ((dialect s).expr e))
  | none => return text

/-- Declares and defines a method. The assignments that wait for `_ready` are put at the start of
its body. -/
def method (s : Settings) (m : Method) : PlusM Unit := do
  redraft fun c => { c with methodArgs := c.methodArgs.put m.name m.params.keys }
  updateClass fun c => { c with methods := c.methods.put m.name m.returns }
  let code ← if m.code.isEmpty then Page.onPage (put "\n\x7b\n\x7d") else pure m.code
  redraft ClassDraft.toPublic
  let returns ← typeText s m.returns
  let declared ← m.params.entries.mapM (declaredParam s m.inits)
  redraft (·.add ("\t" ++ (if m.static then "static " else "") ++ returns ++ " " ++ m.name ++ "(" ++
    String.intercalate ", " declared ++ ")" ++ (if m.override then " override" else "") ++ ";\n"))
  let returns ← typeText s m.returns
  let defined ← m.params.entries.mapM (paramText s)
  put (returns ++ " " ++ (← Page.own).className ++ "::" ++ m.name ++ "(" ++
    String.intercalate ", " defined ++ ")")
  let waiting := (← draft).onready
  if m.name = "_ready" ∧ ¬ waiting.isEmpty then
    redraft fun c => { c with onready := [] }
    Page.write (Dialect.withFirstStatements (← Page.level) waiting code)
  else Page.write code

/-- Declares a property, with its value unless it waits or is static. -/
def property (s : Settings) (p : Property) : PlusM Unit := do
  redraft ClassDraft.toProtected
  let modifier := if p.constant then "const " else if p.static then "static " else ""
  let type ← typeText s (some p.type)
  redraft (·.add ("\t" ++ modifier ++ type ++ " " ++ p.name))
  if let some e := p.init then
    if p.onready then
      let text ← Page.onPage (do put p.name; (dialect s).assignment e)
      redraft fun c => { c with onready := c.onready ++ [text] }
    else if p.static then
      let head := p.type ++ " " ++ (← Page.own).className ++ "::" ++ p.name
      let text ← Page.onPage (do put head; (dialect s).assignment e)
      redraft fun c => { c with statics := c.statics ++ [text] }
    else
      let text ← Page.onPage ((dialect s).assignment e)
      redraft (·.add text)
  redraft (·.add ";")

def getter (s : Settings) (name code : String) : PlusM Unit := do
  redraft fun c => { c with getters := c.getters.put name (getterName name) }
  method s { name := getterName name, code := code, returns := ← memberType name }

def setter (s : Settings) (name value code : String) : PlusM Unit := do
  redraft fun c => { c with setters := c.setters.put name (setterName name) }
  method s { name := setterName name, code := code, params := .ofList [(value, ← memberType name)] }

def defaultGetter (s : Settings) (name : String) : PlusM Unit :=
  getter s name (" \x7b\n\treturn " ++ name ++ ";\n\x7d\n")

def defaultSetter (s : Settings) (name : String) : PlusM Unit :=
  setter s name "value" (" \x7b\n\t" ++ name ++ " = value;\n\x7d\n")

def accessor (s : Settings) (p : Property) (a : Accessor) : PlusM Unit :=
  match a with
  | .getterMethod m => redraft fun c => { c with getters := c.getters.put p.name m }
  | .setterMethod m => redraft fun c => { c with setters := c.setters.put p.name m }
  | .getter code => getter s p.name code
  | .setter value code => setter s p.name value code

def endProperty (s : Settings) (p : Property) (accessors : List Accessor) : PlusM Unit := do
  let hasSetter := accessors.any Accessor.sets
  let hasGetter := accessors.any (!·.sets)
  if hasSetter && !hasGetter then defaultGetter s p.name
  if hasGetter && !hasSetter then defaultSetter s p.name

def signal (s : Settings) (name : String) (params : Params) : PlusM Unit := do
  redraft fun c => { c with signals := c.signals.put name params }
  let texts ← params.entries.mapM (paramText s)
  redraft (·.add ("\t/* signal " ++ name ++ "(" ++ String.intercalate ", " texts ++ ") */"))

def accessorOf (t : Table String) (name : String) : Option String :=
  match t.find? name with
  | some m => if m.isEmpty then none else some m
  | none => none

/-- The line that binds a property. The accessors that it lacks are added. -/
def markerBinding (s : Settings) (a : BoundMarker) : PlusM String := do
  match a.member with
  | some member =>
    if member.isEmpty then return groupBinding
    let type := (← memberType member).getD ""
    if Text.startsWith type "signal" then return ""
    let hint := exportHint a.name
    let c ← draft
    let setter := accessorOf c.setters member
    let getter := accessorOf c.getters member
    if setter.isNone then defaultSetter s member
    if getter.isNone then defaultGetter s member
    return "\tClassDB::add_property(get_class_static(), PropertyInfo(" ++ variantType s type ++
      ", \"" ++ member ++ "\"" ++
      (if hint = "EXPORT" then "" else ", " ++ hint ++ ", \"" ++ a.args ++ "\"") ++
      "), \"" ++ setter.getD (setterName member) ++ "\", \"" ++
      getter.getD (getterName member) ++ "\");\n"
  | none => return groupBinding
where
  groupBinding : String :=
    "\tClassDB::add_property_" ++ Text.replaceAll a.name "export_" "" ++
      "(get_class_static(), \"" ++ a.args ++ "\",\"\");\n"

/-- Items, each after a comma. -/
def afterCommas (items : List String) : String := String.join (items.map (", " ++ ·))

/-- The line that binds a signal. -/
def signalBinding (s : Settings) (e : String × Params) : String :=
  let params := e.2.entries.map fun p =>
    "PropertyInfo(" ++ variantType s (p.2.getD "") ++ ", \"" ++ p.1 ++ "\")"
  "\tClassDB::add_signal(get_class_static(), MethodInfo(\"" ++ e.1 ++ "\"" ++ afterCommas params ++
    "));\n"

/-- The binding of a method; one whose name starts with an underscore is not bound. -/
def methodBinding (name : String) : PlusM String := do
  if Text.startsWith name "_" then return ""
  match (← draft).methodArgs.find? name with
  | none => throw (.unknownEntry name)
  | some args =>
    return "\tClassDB::bind_method(D_METHOD(\"" ++ name ++ "\"" ++
      afterCommas (args.map fun a => "\"" ++ a ++ "\"") ++ "), &" ++ (← Page.own).className ++
      "::" ++ name ++ ");\n"

/-- The line that binds an enumerator. -/
def enumBinding (name : String) : String :=
  "\tClassDB::bind_integer_constant(get_class_static(), _gde_constant_get_enum_name(" ++ name ++
    ", \"" ++ name ++ "\"), \"" ++ name ++ "\", " ++ name ++ ");"

/-- The body of the method that binds a class. Properties are bound last, but gone through first,
because they can bring in methods. -/
def bindings (s : Settings) : PlusM String := do
  let properties ← (← draft).markers.mapM (markerBinding s)
  let signals := (← draft).signals.entries.map (signalBinding s)
  let info ← classInfo
  let methods ← info.methods.keys.mapM methodBinding
  return " \x7b\n" ++ String.join methods ++
    String.intercalate "\n" (info.enums.keys.map enumBinding) ++ "\n" ++
    String.join properties ++ String.join signals ++ "\x7d\n"

/-- The lines that make the enumerations of a class known. -/
def enumCasts (s : Settings) (className : String) (enums : Table Ty) : String :=
  let names := (Text.distinctSorted (enums.values.filterMap id)).map fun e => typeName s (some e)
  String.intercalate "\n" ((names.filter (!·.isEmpty)).map fun n =>
    "VARIANT_ENUM_CAST(" ++ className ++ "::" ++ n ++ ")")

/-- Adds the methods with which a class ends: `_ready` if assignments wait for it, and the one that binds the
members. -/
def addLastMethods (s : Settings) : PlusM Unit := do
  if !(← draft).onready.isEmpty then method s { name := "_ready", override := true }
  let c ← draft
  if !c.markers.isEmpty || !(← classInfo).methods.isEmpty || !c.signals.isEmpty then
    let code ← bindings s
    redraft fun c => c.toPublic.add "\n"
    put "\n"
    method s { name := "_bind_methods", code := code, static := true }

/-- Ends a class: its declaration is closed, and the definitions of its static variables are put down in the
implementation. -/
def endClass (s : Settings) : PlusM Unit := do
  addLastMethods s
  let c ← draft
  let casts := enumCasts s c.name (← classInfo).enums
  Page.modifyOwn fun o => { o with
    declarations := o.declarations ++ c.text ++ "\x7d;\n\n" ++ casts
    implementation := o.implementation ++ String.join (c.statics.map (· ++ ";\n")) }

def closeScopes : Nat → PlusM Unit
  | 0 => return
  | n + 1 => do
    closeScope
    closeScopes n

def maxLineEnds : Nat := 2

def headerForm : String :=
  "\n#ifndef __CLASS___H\n#define __CLASS___H\n\n#include <godot_cpp/godot.hpp>\n" ++
  "#include <godot_cpp/variant/array.hpp>\n#include <godot_cpp/variant/dictionary.hpp>\n" ++
  "__INCLUDES__\n\nusing namespace godot;\n\n__IMPLEMENTATION__\n\n#endif // __CLASS___H\n"

def implementationForm : String :=
  "\n#include \"__HEADER__.hpp\"\n\n#include <godot_cpp/core/object.hpp>\n" ++
  "#include <godot_cpp/core/class_db.hpp>\n" ++
  "#include <godot_cpp/variant/utility_functions.hpp>\n\n\n"

def headerText (o : State) : String :=
  let includes := String.intercalate "\n" ((Text.distinctSorted o.used).map includeLine) ++ "\n"
  tidy maxLineEnds <|
    Text.replaceAll (Text.replaceAll
      (Text.replaceAll headerForm "__CLASS__" (Text.upper o.scriptName))
      "__INCLUDES__" includes) "__IMPLEMENTATION__" o.declarations

def implementationText (o : State) (code : String) : String :=
  tidy maxLineEnds (Text.replaceAll implementationForm "__HEADER__" o.scriptName ++
    Text.replaceAll code "\n\x7d" "\n\x7d\n\n")

/-- Ends a script. The implementation is made from the page, whatever was put down in it before. -/
def endScript (s : Settings) : PlusM Unit := do
  endClass s
  Page.flush
  closeScopes (← Page.level).toNat
  let page := (← get).pages.page
  Page.modifyOwn fun o =>
    { o with header := headerText o, implementation := implementationText o page }

def serve (s : Settings) : Request → PlusM Unit
  | .put text => put text
  | .comment text => comment ("//" ++ text)
  | .longComment text => comment ("/*" ++ text ++ "*/")
  | .indent => Page.shift 1
  | .dedent => Page.shift (-1)
  | .openPage => Page.openPage
  | .openScope => openScope
  | .closeScope => closeScope
  | .enterClass name => Page.modifyOwn fun o => { o with className := name }
  | .defineClass name base _ _ => defineClass name base
  | .endClass _ => endClass s
  | .endScript => endScript s
  | .enumeration name values inits => enumeration s name values inits
  | .marker name args member _ =>
    redraft fun c => { c with markers := c.markers ++ [⟨member, name, args⟩] }
  | .property p _ => property s p
  | .accessor p a => accessor s p a
  | .endProperty p accessors => endProperty s p accessors
  | .localVariable type name init => do
    put ((← typeText s (some type)) ++ " " ++ name)
    if let some e := init then (dialect s).assignment e
  | .method m => method s m
  | .signal name params => signal s name params
  | .assignment e => (dialect s).assignment e
  | .endStatement => do if 0 < (← Page.level) then put ";"
  | .expr e => (dialect s).expr e
  | .arrayItem e => (dialect s).arrayItem e
  | .dictionaryItem k v => (dialect s).dictionaryItem k v
  | .ifHead e => (dialect s).between "if(" e ")"
  | .elifHead e => (dialect s).between "else if(" e ")"
  | .elseHead => put "else"
  | .whileHead e => (dialect s).between "while(" e ")"
  | .forHead name type e => forHead s name type e
  | .breakStatement => put "break;"
  | .continueStatement => put "continue;"
  | .returnHead e => (dialect s).returnHead e
  | .await object signal => await object signal
  | .matchHead byJump => (dialect s).matchHead byJump
  | .matchSubject byJump => (dialect s).matchSubject byJump
  | .matchCase byJump comparison pattern guard code =>
    (dialect s).matchCase byJump comparison pattern guard code

def writer (s : Settings) : Writer (Pages State) := ⟨serve s, Page.takePage⟩

def start (scriptName : String) : Pages State := { own := { scriptName := scriptName } }

end GdScribe.CPlusPlus
