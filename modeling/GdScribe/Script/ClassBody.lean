import GdScribe.Script.Statement

/-!
# Reading classes

The members of a class: inner classes, enumerations, methods, signals and properties, and the
header of a script, whose members are those of its own class.

* `classBody`: the members of one indentation.
* `header`: the lines before the first member.
* `scriptBody`: all members of a script. A line that cannot be read is reported and dropped.
-/

namespace GdScribe.Read

variable {σ : Type} (w : Writer σ) (r : Rules σ)

def announceClass : ReadM σ Unit := do ask w (.enterClass (← get).className)

def startClass (name base : String) (isMain : Bool) : ReadM σ Unit := do
  note (if isMain then .script name base else .opened name base)
  modify fun s =>
    { s with classes := name :: s.classes,
             desk := { s.desk with classes := s.desk.classes.declare name base } }
  announceClass w
  ask w (.defineClass name base (← get).isTool isMain)

def endClass : ReadM σ Unit := do
  ask w (.endClass (← get).className)
  note .closed
  modify fun s =>
    { s with classes := if 1 < s.classes.length then s.classes.drop 1 else s.classes }
  announceClass w

def nameIfAny : ReadM σ String := do
  if ← kindIs .text then consume else return ""

def enumeration : ReadM σ Unit := do
  let name ← nameIfAny
  let _ ← expect "\x7b"
  let d ← paramDefinitions r "\x7d"
  record (.enumerators d.params.keys (some (enumType name)))
  ask w (.enumeration name d.params d.inits)

def method (static : Bool) : ReadM σ Unit := do
  let name ← consume
  let _ ← expect "("
  let d ← paramDefinitions r ")"
  learnAll d.params.entries
  let declared ← typeAfter "->"
  let _ ← expect ":"
  let (t, code) ← onPage w (block w r)
  let returns := declared.orElse t
  record (.method name returns)
  let override := !static && (← get).parentClass.methods.contains name
  ask w (.method
    { name := name, params := d.params, inits := d.inits, returns := returns, code := code,
      static := static, override := override })

def signalParams : ReadM σ Params := do
  if ← expect "(" then return (← paramDefinitions r ")").params
  else return {}

def signal : ReadM σ Unit := do
  let name ← consume
  record (.member name (some (signalType name)))
  let params ← signalParams r
  ask w (.signal name params)

/-- An annotation: its name, its arguments without quotes, and the blank lines after it. -/
structure Marker where
  name : String
  args : String
  spacing : String

/-- The annotations before a member: the last one, and whether the member waits for its node to
be ready. -/
structure Markers where
  last : Option Marker := none
  onready : Bool := false

def markerArguments : ReadM σ String := do
  if ← expect "(" then
    let values ← valuesUpTo ")" (fun k => k == .punct ')')
    let _ ← expect ")"
    return Text.replaceAll (Text.replaceAll (String.join values) "\"" "") "'" ""
  else return ""

/-- Reads an annotation after its mark. One that is followed by another belongs to no member. -/
def marker : ReadM σ Marker := do
  let name ← consume
  let args ← markerArguments
  let ((), spacing) ← onPage w (endLine w)
  if ← valueIs "@" then ask w (.marker name args none spacing)
  return ⟨name, args, spacing⟩

/-- Reads one annotation after its mark; `onready` is the last one. -/
def nextMarker (a : Markers) : ReadM σ (ForInStep Markers) := do
  if ← expect "onready" then
    endLine w
    return .done { a with onready := true }
  else return .yield ⟨some (← marker w), false⟩

def markers : ReadM σ Markers := whileExpected "@" (nextMarker w) {}

def writeMarker (member : String) : Option Marker → ReadM σ Unit
  | some m => do
    if !m.name.isEmpty then ask w (.marker m.name m.args (some member) m.spacing)
  | none => return

def declares (constant : Bool) : ReadM σ Bool :=
  if constant then return true else expect "var"

def markedProperty (static : Bool) (a : Markers) : ReadM σ Unit := do
  let constant ← expect "const"
  if ← declares constant then
    let name ← consume
    writeMarker w name a.last
    declareProperty w r name
      (if constant then .constant
        else if static then .static
        else if a.onready then .onready
        else .plain)

def property (static : Bool) : ReadM σ Unit := do markedProperty w r static (← markers w)

def nameAfter (word default : String) : ReadM σ String := do
  if ← expect word then consume else return default

def innerClass (inner : ReadM σ Unit) : ReadM σ Unit := do
  let name ← consume
  let base ← nameAfter "extends" "Object"
  startClass w name base false
  let _ ← expect ":"
  goDeeper
  inner
  endClass w

def plainItem (static : Bool) : ReadM σ Unit := do
  if ← expect "enum" then enumeration w r
  else if ← expect "func" then method w r static
  else if ← expect "signal" then signal w r
  else property w r static

/-- Reads a member, with `inner` for the members of an inner class. -/
def item (static : Bool) (inner : ReadM σ Unit) : ReadM σ Unit := do
  if ← expect "class" then innerClass w inner else plainItem w r static

/-- Reads what stands in a class; gives whether the class may go on. -/
def member (inner : ReadM σ Unit) : ReadM σ Bool := do
  if ← expect "pass" then
    note .skipped
    return false
  let static ← expect "static"
  item w r static inner
  endLine w
  return true

def classMember (inner : ReadM σ Unit) : ReadM σ Bool := do
  note (.member (← get).firstWords)
  member w r inner

/-- Reads one member of a class, after which the class goes on or ends. -/
def classRound (inner : ReadM σ Unit) : ReadM σ (ForInStep Unit) := do
  if ← classMember w r inner then return .yield () else return .done ()

/-- Reads the members of one indentation; `n` bounds how deep classes are nested. -/
def classBodyWithin : Nat → ReadM σ Unit
  | 0 => throw .endless
  | n + 1 => do
    let level := (← get).level
    whileMoving (return level ≤ (← get).level) (fun _ => classRound w r (classBodyWithin n)) ()

def classBody : ReadM σ Unit := do classBodyWithin w r (← roundsLeft)

/-- The name in the line that starts with `word`, or else the given one. -/
def lineName (word default : String) : ReadM σ String := do
  if ← expect word then
    let name ← consume
    endLine w
    return name
  else return default

/-- Reads the lines before the first member and starts the script's own class. The name of the
class and its base may come in any order. -/
def header (scriptName : String) : ReadM σ Unit := do
  note (.line 0)
  endLine w
  let isTool ← expectPair "@" "tool"
  modify fun s => { s with isTool := isTool }
  endLine w
  let name ← lineName w "class_name" scriptName
  let base ← lineName w "extends" "Object"
  let name ← nameAfter "class_name" name
  startClass w name base true
  endLine w

/-- The indentation that the value of a token stands for, if it is a line end. -/
def levelOf (kind : TokenKind) (value : String) : ReadM σ Nat :=
  if kind = .lineEnd then return Token.numberOf value else throw (.notALevel value)

def panicMessage (dropped : List String) (at_ : Token) : String :=
  "PANIC! <" ++ String.intercalate " " dropped ++ "> unexpected at " ++ at_.describe

def report (message : String) : ReadM σ Unit := do
  ask w (.comment (message ++ "\n"))
  print (Text.red message)

/-- Drops the rest of a line that cannot be read and reports it; what follows is taken for the
statements of a block. -/
def recover : ReadM σ Unit := do
  let t ← current
  let dropped ← valuesUpTo "LINE_END" (fun k => k == .lineEnd)
  let kind := (← current).kind
  let level ← levelOf kind (← consume)
  note .panicked
  report w (panicMessage dropped t)
  modify fun s => { s with level := level - 1 }
  let _ ← block w r

/-- How often a script may be taken up again after a line that cannot be read. -/
def maxTries : Nat := 20

/-- Reads the members of a script up to a line that cannot be read, if there is one. -/
def scriptRound (tries : Nat) : ReadM σ (ForInStep Nat) := do
  if tries < maxTries then
    classBody w r
    if ← kindIs .eof then
      trace "reached EOF"
      return .done tries
    recover w r
    return .yield (tries + 1)
  else return .done tries

def scriptBody : ReadM σ Unit := do
  let _ ← whileMoving (pure true) (scriptRound w r) 0

def script (scriptName : String) : ReadM σ Unit := do
  header w scriptName
  scriptBody w r
  ask w .endScript

end GdScribe.Read
