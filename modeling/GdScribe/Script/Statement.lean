import GdScribe.Script.Expression

/-!
# Reading statements

Blocks, statements and declarations. A statement gives the type of the value that it returns from
the function it stands in, as far as it is known.

* `block`, `statement`: statements of one indentation.
* `declaration`: what variables and properties have in common.
* `declareLocal`, `declareProperty`: variables of a function and properties of a class.
-/

namespace GdScribe.Read

variable {σ : Type} (w : Writer σ) (r : Rules σ)

/-- What a declaration says: the type and the initial value, and whether accessors follow. -/
structure Declaration where
  name : String
  type : String
  init : Option Expr
  accessors : Bool

def nameOr (name : String) : ReadM σ String :=
  if name.isEmpty then consume else return name

def typeIf (there : Bool) : ReadM σ Ty := if there then type else return none

/-- Reads a declaration from its colon on; without a name it reads that too. -/
def declaration (name : String) : ReadM σ Declaration := do
  let name ← nameOr name
  let colon ← expect ":"
  let isText ← kindIs .text
  let isAssign ← kindIs (.punct '=')
  let accessors := colon && !(isText || isAssign)
  let declared ← typeIf (colon && isText)
  if ← expect "=" then
    let (t, e) ← expression w r
    return ⟨name, ((declared.orElse t).orElse (some "Variant")).getD "", some e, accessors⟩
  else return ⟨name, (declared.orElse (some "Variant")).getD "", none, accessors⟩

def declareLocal : ReadM σ Unit := do
  let d ← declaration w r ""
  learn d.name (some d.type)
  ask w (.localVariable d.type d.name d.init)

def accessor? : ReadM σ (Option Accessor) := do
  if ← expect "get" then
    if ← expect "=" then return some (.getterMethod (← consume))
    else if ← expect ":" then
      let (_, code) ← onPage w r.block
      return some (.getter code)
    else return none
  else if ← expect "set" then
    if ← expect "=" then return some (.setterMethod (← consume))
    else if ← expect "(" then
      let value ← consume
      let _ ← expectPair ")" ":"
      let (_, code) ← onPage w r.block
      return some (.setter value code)
    else return none
  else return none

def writeAccessor (p : Property) : Option Accessor → ReadM σ Unit
  | some a => ask w (.accessor p a)
  | none => return

/-- Up to `n` accessors of a property; gives those that were there, in order. -/
def accessors (p : Property) : Nat → ReadM σ (List Accessor)
  | 0 => return []
  | n + 1 => do
    let a ← accessor? w r
    writeAccessor w p a
    let _ ← expect ","
    let rest ← accessors p n
    return a.toList ++ rest

/-- What a property is, beside its type and value. -/
inductive PropertyFlag where
  | plain
  | constant
  | static
  | onready
  deriving DecidableEq, Repr

def commentInLine : ReadM σ Unit := do
  if ← kindIs .comment then
    ask w (.put " ")
    ask w (.comment (← consume))

def resume (level : Nat) : ReadM σ Unit :=
  modify fun s => { s with level := level, history := .resumed level :: s.history }

/-- Runs an action, after which the level from before counts again. -/
def resuming (act : ReadM σ Unit) : ReadM σ Unit := do
  let level := (← get).level
  act
  resume level

/-- Writes a property after its declaration, with the accessors that follow. -/
def writeProperty (p : Property) (accessible : Bool) : ReadM σ Unit := do
  if (← expect ":") || accessible then
    commentInLine w
    let _ ← expectKind .lineEnd
    resuming do
      let _ ← deepen w (.property p true)
      let found ← accessors w r p 2
      ask w (.endProperty p found)
  else
    ask w (.property p false)
    ask w .endStatement

def declareProperty (name : String) (flag : PropertyFlag) : ReadM σ Unit := do
  let d ← declaration w r name
  record (.member d.name (some d.type))
  writeProperty w r
    { type := d.type, name := d.name, init := d.init, constant := flag = .constant,
      static := flag = .static, onready := flag = .onready } d.accessors

/-- The branches after the first one of an `if`; `t` is the type so far. -/
def ifBranches (t : Ty) : ReadM σ Ty := do
  let t ← whileExpected "elif"
    (fun t => do
      let (_, condition) ← boolean w r
      ask w (.elifHead condition)
      let _ ← expect ":"
      return .yield (t.orElse (← r.block))) t
  if ← expectPair "else" ":" then
    ask w .elseHead
    return t.orElse (← r.block)
  else return t

def ifStatement : ReadM σ Ty := do
  let (_, condition) ← boolean w r
  ask w (.ifHead condition)
  let _ ← expect ":"
  let t ← r.block
  ifBranches w r t

def whileStatement : ReadM σ Ty := do
  let (_, condition) ← boolean w r
  ask w (.whileHead condition)
  let _ ← expect ":"
  r.block

def elementType (t : Ty) : String :=
  match t with
  | some s => if s.isEmpty ∨ s = "Array" then "Variant" else Text.replaceAll s "[]" ""
  | none => "Variant"

def forStatement : ReadM σ Ty := do
  let name ← consume
  let declared ← typeAfter ":"
  let _ ← expect "in"
  let (t, e) ← expression w r
  let element := (declared.orElse (some (elementType t))).getD ""
  learn name (some element)
  ask w (.forHead name element e)
  let _ ← expect ":"
  r.block

def jumps (t : Ty) : Bool := t == some "int" || t == some "string" || t == some "float"

def casePattern : ReadM σ (Option Expr) := do
  if ← expect "_" then return none
  else return some (← expression w r).2

def caseGuard : ReadM σ (Option Expr) := do
  if ← expect "when" then return some (← boolean w r).2
  else return none

/-- One case of a choice; gives the type of what its block returns. -/
def matchCase (byJump : Bool) (comparison : String) : ReadM σ Ty := do
  endLine w
  let pattern ← casePattern w r
  let guard ← caseGuard w r
  let _ ← expect ":"
  let (t, code) ← onPage w r.block
  ask w (.matchCase byJump comparison pattern guard code)
  return t

/-- The start of each comparison with the subject, if cases are compared one by one. -/
def caseComparison (byJump : Bool) : ReadM σ String :=
  if byJump then return "" else takePage w

def casesAt (byJump : Bool) (level : Nat) : ReadM σ Ty := do
  let comparison ← caseComparison w byJump
  whileMoving (return level ≤ (← get).level)
    (fun t => return .yield (t.orElse (← matchCase w r byJump comparison))) none

def matchCases (byJump : Bool) : ReadM σ Ty := do
  let _ ← expect ":"
  let level ← deepen w (.matchSubject byJump)
  casesAt w r byJump level

def matchStatement : ReadM σ Ty := do
  let (t, subject) ← expression w r
  ask w (.matchHead (jumps t))
  ask w (.expr subject)
  matchCases w r (jumps t)

def returnStatement : ReadM σ Ty := do
  let (t, e) ← expression w r
  ask w (.returnHead e)
  ask w .endStatement
  return t

def awaited (code : String) : String × String :=
  match Text.splitLast code "." 1 with
  | [object, signal] => (object, signal)
  | _ => ("self", code)

def awaitStatement : ReadM σ Unit := do
  let ((), code) ← onPage w (do
    let (_, e) ← expression w r
    ask w (.expr e))
  let (object, signal) := awaited code
  ask w (.await object signal)

def reassignment : ReadM σ Unit := do
  let (_, e) ← expression w r
  if ← expect "=" then
    endLine w
    let (_, value) ← expression w r
    ask w (.expr e)
    ask w (.assignment value)
  else ask w (.expr e)
  ask w .endStatement

def statement : ReadM σ Ty := do
  if ← expect "pass" then return none
  else if ← expect "var" then
    declareLocal w r
    ask w .endStatement
    return none
  else if ← expect "const" then
    declareLocal w r
    ask w .endStatement
    return none
  else if ← expect "if" then ifStatement w r
  else if ← expect "while" then whileStatement w r
  else if ← expect "for" then forStatement w r
  else if ← expect "match" then matchStatement w r
  else if ← expect "return" then returnStatement w r
  else if ← expect "await" then
    awaitStatement w r
    return none
  else if ← expect "break" then
    ask w .breakStatement
    return none
  else if ← expect "continue" then
    ask w .continueStatement
    return none
  else
    let k := (← current).kind
    if k = .lineEnd ∨ k = .comment ∨ k = .longString then return none
    reassignment w r
    return none

def block : ReadM σ Ty := do
  let level ← deepen w .openScope
  whileMoving (return level ≤ (← get).level)
    (fun t => do
      let t' ← statement w r
      endLine w
      return .yield (t.orElse t')) none

end GdScribe.Read
