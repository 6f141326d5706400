import GdScribe.Script.History
import GdScribe.Token.Scan

/-!
# Reading tokens

The state of a reader that goes through the tokens of a script with one token in view, and its
basic moves.

* `Reader`, `ReadM`: the state, and actions that can fail.
* `advance`, `consume`, `expect`: moves over tokens. Past the last token stands the end, as often
  as it is asked for.
* `whileMoving`: repetition that stops when a round does not move.
* `endLine`: what happens between statements, where comments are passed on and scopes are closed.
-/

namespace GdScribe

/-- What the reader knows at a point of a script. -/
structure Reader (σ : Type) where
  current : Token
  ahead : List Lexeme
  closing : List String
  moves : Nat := 0
  passed : List Token := []
  level : Nat := 0
  isTool : Bool := false
  classes : List String := []
  locals : Table Ty := {}
  /-- Whether the reader is between parentheses, where lines may end anywhere. -/
  inParens : Bool := false
  /-- The string literals that were read as values, the last one first. -/
  strings : List Token := []
  asked : List Request := []
  history : List Note := []
  desk : Desk σ
  deriving Inhabited

abbrev ReadM (σ : Type) := EStateM Fault (Reader σ)

namespace Reader

variable {σ : Type}

def next (s : Reader σ) : Reader σ :=
  match s.ahead with
  | l :: rest =>
    { s with current := l.token, ahead := rest, moves := s.moves + 1,
             passed := s.current :: s.passed, desk := s.desk.print l.notices }
  | [] =>
    { s with current := s.current.atEnd, closing := [], moves := s.moves + 1,
             passed := s.current :: s.passed, desk := s.desk.print s.closing }

def firstWords (s : Reader σ) : List String :=
  s.current.value :: (s.ahead.take 2).map (·.token.value)

def className (s : Reader σ) : String := s.classes.headD ""

def ownClass (s : Reader σ) : ClassInfo := s.desk.classes.info s.className

def parentClass (s : Reader σ) : ClassInfo := s.desk.classes.parent s.className

def updateClass (s : Reader σ) (f : ClassInfo → ClassInfo) : Reader σ :=
  { s with desk := { s.desk with classes := s.desk.classes.update s.className f } }

end Reader

namespace Read

variable {σ : Type}

def atDesk {α : Type} (act : DeskM σ α) : ReadM σ α := fun s =>
  match act s.desk with
  | .ok a d => .ok a { s with desk := d }
  | .error e d => .error e { s with desk := d }

def ask (w : Writer σ) (q : Request) : ReadM σ Unit := do
  modify fun s => { s with asked := q :: s.asked }
  atDesk (w.serve q)

def takePage (w : Writer σ) : ReadM σ String := atDesk w.takePage

def note (n : Note) : ReadM σ Unit := modify fun s => { s with history := n :: s.history }

def goDeeper : ReadM σ Unit :=
  modify fun s => { s with level := s.level + 1, history := .deeper :: s.history }

/-- Goes one level deeper and tells the target so; gives the new level. -/
def deepen (w : Writer σ) (q : Request) : ReadM σ Nat := do
  goDeeper
  ask w q
  return (← get).level

def learn (name : String) (type : Ty) : ReadM σ Unit :=
  modify fun s =>
    { s with locals := s.locals.put name type, history := .learned name type :: s.history }

def learnAll : List (String × Ty) → ReadM σ Unit
  | [] => return
  | (name, type) :: rest => do
    learn name type
    learnAll rest

def record (e : ClassEntry) : ReadM σ Unit := do
  note (.recorded (← get).className e)
  modify fun s => s.updateClass e.put

def onPage {α : Type} (w : Writer σ) (act : ReadM σ α) : ReadM σ (α × String) := do
  ask w .openPage
  let a ← act
  let text ← takePage w
  return (a, text)

def print (line : String) : ReadM σ Unit := modify fun s => { s with desk := s.desk.print [line] }

def trace (line : String) : ReadM σ Unit :=
  modify fun s => { s with desk := s.desk.note (.readStep line) }

def current : ReadM σ Token := return (← get).current

def advance : ReadM σ Unit := modify Reader.next

def kindIs (k : TokenKind) : ReadM σ Bool := return (← get).current.kind == k

def valueIs (v : String) : ReadM σ Bool := return (← get).current.value == v

def expect (v : String) : ReadM σ Bool := do
  if ← valueIs v then
    advance
    return true
  else return false

/-- Moves over a token with the value `v`, and if it is there, over one with the value `u`. -/
def expectPair (v u : String) : ReadM σ Bool := do
  if ← expect v then expect u else return false

def expectKind (k : TokenKind) : ReadM σ Bool := do
  if ← kindIs k then
    advance
    return true
  else return false

def consume : ReadM σ String := do
  let v := (← get).current.value
  advance
  trace ("consumed: " ++ v)
  return v

def consumeString : ReadM σ String := do
  modify fun s => { s with strings := s.current :: s.strings }
  consume

/-- How many rounds a repetition can need: each round moves, and one more finds nothing. -/
def roundsLeft : ReadM σ Nat := return (← get).ahead.length + 4

/-- The rounds of `whileMoving`; `last` is the number of moves before the last round. -/
def moveRounds {β : Type} (condition : ReadM σ Bool) (body : β → ReadM σ (ForInStep β)) :
    Nat → Option Nat → β → ReadM σ β
  | 0, _, _ => throw .endless
  | n + 1, last, b => do
    if last = some (← get).moves then return b
    else if ← condition then
      let here := (← get).moves
      match ← body b with
      | .done b => return b
      | .yield b => moveRounds condition body n (some here) b
    else return b

/-- Repeats `body` while the last round moved on and the condition holds, in this order. -/
def whileMoving {β : Type} (condition : ReadM σ Bool) (body : β → ReadM σ (ForInStep β)) (b : β) :
    ReadM σ β := do
  moveRounds condition body (← roundsLeft) none b

def expectRounds {β : Type} (v : String) (body : β → ReadM σ (ForInStep β)) :
    Nat → β → ReadM σ β
  | 0, _ => throw .endless
  | n + 1, b => do
    if ← expect v then
      match ← body b with
      | .done b => return b
      | .yield b => expectRounds v body n b
    else return b

/-- Repeats `body` as long as a token with the value `v` comes before it. -/
def whileExpected {β : Type} (v : String) (body : β → ReadM σ (ForInStep β)) (b : β) :
    ReadM σ β := do
  expectRounds v body (← roundsLeft) b

/-- Consumes tokens up to one that has the value `v` or satisfies `stop`. -/
def valuesUpTo (v : String) (stop : TokenKind → Bool) : ReadM σ (List String) := do
  let values ← whileMoving (return !((← valueIs v) || stop (← current).kind))
    (fun acc => return .yield ((← consume) :: acc)) []
  return values.reverse

def dottedRest (first : String) : ReadM σ String :=
  whileExpected "." (fun name => return .yield (name ++ "." ++ (← consume))) first

/-- Reads a type; `n` bounds how deep element types are nested. The type without a value is
`none`, and `Array[T]` is written `T[]`. -/
def typeWithin : Nat → ReadM σ Ty
  | 0 => throw .endless
  | n + 1 => do
    let first ← consume
    if first = "void" then return none
    let name ← dottedRest first
    if name = "Array" then
      if ← expect "[" then
        match ← typeWithin n with
        | none => throw .untypedArray
        | some element =>
          let _ ← expect "]"
          return some (element ++ "[]")
    return some name

def type : ReadM σ Ty := do typeWithin (← roundsLeft)

def typeAfter (v : String) : ReadM σ Ty := do
  if ← expect v then type else return none

/-- A comment that waits to be written. -/
inductive Remark where
  | short (text : String)
  | long (text : String)

def writeRemark (w : Writer σ) (jumped : Nat) (r : Remark) : ReadM σ Unit := do
  if 0 < jumped then ask w (.put (Text.times "\n" jumped))
  ask w (match r with
    | .short text => .comment text
    | .long text => .longComment text)
  ask w (.put "\n")

def closeScopes (w : Writer σ) : Nat → ReadM σ Unit
  | 0 => return
  | n + 1 => do
    ask w .closeScope
    closeScopes w n

/-- The lines passed, as far as they are still to be written: after a comment has been written,
the first line end that follows is already there. -/
structure Passed where
  indent : Option Nat := none
  jumped : Int := 0
  remark : Option Remark := none

def passLines (w : Writer σ) : Nat → Passed → ReadM σ Passed
  | 0, _ => throw .endless
  | n + 1, p => do
    let t ← current
    match t.kind with
    | .lineEnd =>
      advance
      passLines w n { p with indent := some t.indent, jumped := p.jumped + 1 }
    | .comment =>
      let jumped ← flush p
      let text ← consume
      passLines w n { p with jumped := jumped, remark := some (.short text) }
    | .longString =>
      let jumped ← flush p
      let text ← consume
      passLines w n { p with jumped := jumped, remark := some (.long text) }
    | _ => return p
where
  flush (p : Passed) : ReadM σ Int := do
    match p.remark with
    | some r =>
      writeRemark w p.jumped.toNat r
      return -1
    | none => return p.jumped

def noteLine : Option Nat → ReadM σ Unit
  | some indent => note (.line indent)
  | none => return

/-- Closes the scopes that code with some indentation leaves; the indentation then counts if it is
smaller. -/
def leaveScopes (w : Writer σ) (indent : Option Nat) : ReadM σ Unit := do
  noteLine indent
  let level := (← get).level
  let indent := indent.getD level
  closeScopes w (level - indent)
  if indent < level then modify fun s => { s with level := indent }

def writePassed (w : Writer σ) (p : Passed) : ReadM σ Unit :=
  match p.remark with
  | some r => writeRemark w p.jumped.toNat r
  | none => ask w (.put (Text.times "\n" p.jumped.toNat))

def endLine (w : Writer σ) : ReadM σ Unit := do
  let p ← passLines w (← roundsLeft) {}
  leaveScopes w p.indent
  writePassed w p

def endLineInParens (w : Writer σ) : ReadM σ Unit := do
  if (← get).inParens then endLine w

end Read

end GdScribe
