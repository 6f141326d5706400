import GdScribe.Decimal.Shortest
import GdScribe.Script.Reader

/-!
# Reading expressions

Expressions by descent, from conditional choices down to single values and what is done with them:
members, calls and indices. Each rule gives the type of what it read, as far as it is known, and
the tree to be written.

The rules are open: where a rule needs one that comes before it, it takes it from `Rules`, which
`Script.Run` ties together. Between two uses of `Rules` at least one token is consumed.

* `value`, `dereference`, `sum`, `arithmetic`, `boolean`, `ternary`, `expression`: the levels.
* `reference`, `call`, `subscription`, `follow`: what can stand after a value.
* `paramDefinitions`: the parameters of a function, or the values of an enumeration.
-/

namespace GdScribe

abbrev Typed := Ty × Expr

/-- The rules that other rules come back to. -/
structure Rules (σ : Type) where
  expression : ReadM σ Typed
  ternary : ReadM σ Typed
  boolean : ReadM σ Typed
  sum : ReadM σ Typed
  /-- What follows the point after a value of some type; the flag marks a singleton. -/
  reference : Ty → Bool → ReadM σ Typed
  follow : Ty → ReadM σ Typed
  block : ReadM σ Ty

namespace Read

variable {σ : Type} (w : Writer σ) (r : Rules σ)

def callArguments : ReadM σ (List Expr) := do
  let args ← whileMoving (return !(← expect ")"))
    (fun acc => do
      let (_, e) ← r.expression
      let _ ← expect ","
      endLine w
      return .yield (e :: acc)) []
  return args.reverse

/-- Parameters with their types, and the initial values that some of them have. -/
structure ParamDefinitions where
  params : Params := {}
  inits : Table Expr := {}

def paramType : ReadM σ Ty := do
  if ← expect ":" then
    if ← kindIs .text then type else return none
  else return none

/-- The initial value of a parameter, if there is one: the type that is known with it, and all
initial values so far. -/
def paramInit (name : String) (declared : Ty) (inits : Table Expr) : ReadM σ (Ty × Table Expr) := do
  if ← expect "=" then
    let (t, e) ← r.expression
    return (declared.orElse t, inits.put name e)
  else return (declared, inits)

def paramDefinition (d : ParamDefinitions) : ReadM σ ParamDefinitions := do
  let name ← consume
  let declared ← paramType
  let (inferred, inits) ← paramInit r name declared d.inits
  let _ ← expect ","
  return ⟨d.params.put name (inferred.orElse (some "Variant")), inits⟩

def paramDefinitions (closing : String) : ReadM σ ParamDefinitions :=
  whileMoving (return !(← expect closing))
    (fun d => do
      if ← expectKind .lineEnd then return .yield d
      return .yield (← paramDefinition r d)) {}

def arrayItems : ReadM σ Unit := do
  endLine w
  whileMoving (return !(← expect "]"))
    (fun _ => do
      let (_, e) ← r.expression
      ask w (.arrayItem e)
      let _ ← expect ","
      endLine w
      return .yield ()) ()

def dictionaryEntries : ReadM σ Unit := do
  endLine w
  whileMoving (return !(← expect "\x7d"))
    (fun _ => do
      let (_, key) ← r.expression
      let _ ← expect ":"
      let (_, value) ← r.expression
      ask w (.dictionaryItem key value)
      let _ ← expect ","
      endLine w
      return .yield ()) ()

def bracketed (items : ReadM σ Unit) : ReadM σ String := do
  ask w .indent
  let ((), text) ← onPage w items
  ask w .dedent
  return text

def grouped : ReadM σ Typed := do
  let outer := (← get).inParens
  modify fun s => { s with inParens := true }
  endLine w
  let (t, e) ← r.expression
  endLine w
  let _ ← expect ")"
  if !outer then modify fun s => { s with inParens := false }
  return (t, .group e)

/-- Moves over the line end after the head of a function without a name. -/
def enterClosure : ReadM σ Unit := do
  note (.closure (← get).current.kind)
  let _ ← expectKind .lineEnd

def lambda : ReadM σ Typed := do
  if ← kindIs .text then
    let _ ← consume
  let _ ← expect "("
  let d ← paramDefinitions r ")"
  let _ ← expect ":"
  enterClosure
  let (_, code) ← onPage w r.block
  return (some "Callable", .lambda d.params code)

/-- The type of a bare name: of a member, a local name, a constant, an enumerator, the class
itself, or a class. -/
def nameType (s : Reader σ) (name : String) : Ty :=
  let own := s.ownClass
  let globals := s.desk.classes.globals
  let singleton := globals.members.contains name
  let isEnum := own.enums.values.contains (some (enumType name))
  (own.members.ty name).orElse <|
  (s.parentClass.members.ty name).orElse <|
  (s.locals.ty name).orElse <|
  (own.constants.ty name).orElse <|
  (globals.constants.ty name).orElse <|
  (own.enums.ty name).orElse <|
  Ty.orElse (if name = "self" ∨ isEnum then some s.className else none) <|
  if singleton ∨ s.desk.classes.contains name then some name else none

def nameRole (s : Reader σ) (name : String) : NameRole :=
  if s.desk.classes.globals.members.contains name then .singleton
  else if s.ownClass.members.contains name || s.parentClass.members.contains name then .property
  else .variable

def useOf (s : Reader σ) (name : String) : Use :=
  ⟨name, s.className, s.ownClass, s.parentClass, s.desk.classes.globals, nameType s name, nameRole s name⟩

def bareName (name : String) : ReadM σ Typed := do
  let s ← get
  let t := nameType s name
  note (.used (useOf s name))
  match nameRole s name with
  | .singleton => return (t.map (· ++ "singleton"), .name .singleton name)
  | role => return (t, .name role name)

/-- The type of a call's result: of a new object, of a method of the class or its base, of a
method of the caller, or of a global function. -/
def callType (s : Reader σ) (name : String) (caller : Ty) : Ty :=
  let classes := s.desk.classes
  Ty.orElse (if classes.contains name then some name else none) <|
  (s.ownClass.methods.ty name).orElse <|
  (s.parentClass.methods.ty name).orElse <|
  match caller with
  | some c =>
    if !c.isEmpty && classes.contains c then (classes.info c).methods.ty name
    else if c.isEmpty then classes.globals.methods.ty name else none
  | none => classes.globals.methods.ty name

def call (name : String) (caller : Ty) : ReadM σ Typed := do
  let s ← get
  let isGlobal := !caller.known && s.desk.classes.globals.methods.contains name
  let isClass := s.desk.classes.contains name
  let t := callType s name caller
  let args ← callArguments w r
  let (result, rest) ← r.follow t
  let head := if isClass then Expr.construct name t args
    else .call (if isGlobal then some ClassTable.globalScope else caller) name args
  return (result, .seq head rest)

/-- An index after its opening bracket. Only arrays of a known element type give a type. -/
def subscription (t : Ty) : ReadM σ Typed := do
  let element := match t with
    | some s => if Text.occursIn "[]" s then some (Text.replaceAll s "[]" "") else none
    | none => none
  let (_, key) ← r.expression
  let _ ← expect "]"
  let (result, rest) ← r.follow element
  return (result, .seq (.index key) rest)

def follow (t : Ty) : ReadM σ Typed := do
  if ← expect "." then r.reference t false
  else if ← expect "(" then call w r "" t
  else if ← expect "[" then subscription r t
  else return (t, .nothing)

/-- What a name after a point is to the type before it. -/
structure MemberInfo where
  isEnum : Bool
  isConstant : Bool
  type : Ty

def memberInfo (classes : ClassTable) (owner : Ty) (name : String) : MemberInfo :=
  match owner.bind classes.find? with
  | none => ⟨false, false, none⟩
  | some info =>
    let isEnum := owner.known && info.enums.contains name
    let isConstant := owner.known && info.constants.contains name
    ⟨isEnum, isConstant,
      if info.members.contains name then info.members.ty name
      else if isEnum then info.enums.ty name
      else if isConstant then info.constants.ty name
      else none⟩

/-- Whether the token in view assigns: `=`, or an operator that ends in it. -/
def assigns : ReadM σ Bool := do
  let t ← current
  return t.value == "=" || (t.kind == .arithmetic && Text.endsWith t.value "=")

/-- The end of a chain: a constant or enumerator of the owner, or a plain member. Enumerators are
qualified by their enumeration outside the class that has it. -/
def lastMember (className : String) (a : Access) (m : MemberInfo) : Typed :=
  if m.isEnum then
    let t := some (a.owner.getD "" ++ "." ++ m.type.getD "")
    if a.owner = some className then (t, .constant a.name)
    else (t, .seq (.constant (Text.dropEnd (m.type.getD "") 4)) (.constant a.name))
  else if m.isConstant then (m.type, .constant a.name)
  else (m.type, .access a)

/-- What follows the point after a value. The flag marks a singleton. -/
def reference (owner : Ty) (singleton : Bool) : ReadM σ Typed := do
  let name ← consume
  let m := memberInfo (← get).desk.classes owner name
  let bare : Access := ⟨"", owner, m.type, singleton⟩
  let full : Access := ⟨name, owner, m.type, singleton⟩
  let step := if m.type.endsWith "signal" then bare else full
  if owner.endsWith "signal" then
    let signal := Text.replaceAll (owner.getD "") "signal" ""
    let _ ← expect "("
    let args ← callArguments w r
    return (none, if name = "emit" then .emitSignal signal args
      else if name = "connect" then .connectSignal signal args
      else .nothing)
  else if ← expect "(" then
    let (t, e) ← call w r name owner
    return (t, .seq (.access bare) e)
  else if ← expect "." then
    let (t, e) ← r.reference m.type singleton
    return (t, .seq (.access step) e)
  else if ← expect "[" then
    let (t, e) ← subscription r owner
    return (t, .seq (.access step) e)
  else if ← assigns then
    let op ← consume
    let (t, e) ← r.expression
    return (t, .assign full op e)
  else
    return lastMember (← get).className full m

/-- A value that starts with a mark, or else a name if the token in view is of that kind. -/
def markedValue (kind : TokenKind) : ReadM σ Typed := do
  if ← expect "[" then
    return (some "Array", .array (← bracketed w (arrayItems w r)))
  else if ← expect "\x7b" then
    return (some "Dictionary", .dictionary (← bracketed w (dictionaryEntries w r)))
  else if ← expect "(" then
    grouped w r
  else if ← expect "$" then
    return (some "Node", .node (← consume))
  else if ← expect "%" then
    return (some "Node", .node ("%" ++ (← consume)))
  else if ← expect "func" then
    lambda w r
  else if kind = .text then
    let name ← consume
    if ← expect "(" then call w r name none else bareName name
  else return (none, .nothing)

def value : ReadM σ Typed := do
  endLineInParens w
  let t ← current
  if t.kind = .int ∨ t.kind = .hex then
    return (some "int", .literal (← consume))
  else if t.kind = .float then
    return (some "float", .literal (Decimal.render (Decimal.read (← consume))))
  else if t.value = "true" ∨ t.value = "false" then
    return (some "bool", .literal (← consume))
  else if t.kind = .longString ∨ t.kind = .string then
    return (some "string", .text (← consumeString))
  else markedValue w r t.kind

/-- A value with what is done with it. A signal is not written before its use. -/
def dereference : ReadM σ Typed := do
  let (t, e) ← value w r
  let singleton := t.endsWith "singleton"
  let owner : Ty := if singleton then t.map (Text.dropEnd · "singleton".length) else t
  if ← expect "." then
    let (result, rest) ← r.reference owner singleton
    return (result, if t.endsWith "signal" then rest else .seq e rest)
  else if ← expect "[" then
    let (result, rest) ← subscription r owner
    return (result, .seq e rest)
  else return (owner, e)

/-- Values joined by arithmetic operators; the last one gives the type. -/
def sum : ReadM σ Typed := do
  let (t, e) ← dereference w r
  endLineInParens w
  if ← kindIs .arithmetic then
    let op ← consume
    let (t', e') ← r.sum
    return (t', .binary e op e')
  else return (t, e)

def arithmetic : ReadM σ Typed := do
  if ← kindIs .unary then
    let op ← consume
    let (t, e) ← sum w r
    return (t, .unary op e)
  else sum w r

def reportNot : ReadM σ Unit := do
  print ("unexpected 'not' :   " ++ (← current).describe)

/-- A test whether a collection has an item, after its `not` or `in`. -/
def membership (negated : Bool) (item : Typed) : ReadM σ Typed := do
  let finished ← expect "in"
  if negated && !finished then reportNot
  let (t, e) ← r.expression
  return (some "bool", .contains negated item.2 item.1 e t)

def boolean : ReadM σ Typed := do
  let (t, e) ← arithmetic w r
  if ← kindIs .comparison then
    let op ← consume
    let (_, e') ← r.boolean
    return (some "bool", .binary e op e')
  else if ← expect "is" then
    return (some "bool", .isType e (← type))
  else if ← expect "not" then
    membership r true (t, e)
  else if ← expect "in" then
    membership r false (t, e)
  else return (t, e)

def ternary : ReadM σ Typed := do
  let (t, e) ← boolean w r
  if ← expect "if" then
    let (_, condition) ← boolean w r
    let _ ← expect "else"
    let (t', e') ← r.ternary
    return (t.orElse t', .choice condition e e')
  else return (t, e)

def expression : ReadM σ Typed := do
  let (t, e) ← ternary w r
  if ← expect "as" then return (← type, e)
  else return (t, e)

end Read

end GdScribe
