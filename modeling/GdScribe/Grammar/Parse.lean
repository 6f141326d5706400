import GdScribe.Grammar.Definition

/-!
# Parsing

A parser reads tokens with a stack of states and symbols. When no move is set, it recovers: the
symbols on the stack are taken back until the error can be read as a symbol of its own.

* `Symbol`: a token or a nonterminal with its value and its place in the text.
* `perform`: what an action makes of the symbols of a production.
* `Recovery`: what is done about an error in the input.
* `Parser.parse`: parses tokens.
-/

namespace GdScribe.Grammar

/-- Where a symbol stands in the text, as far as it is known. -/
structure Span where
  line : Option Int := none
  start : Option Int := none
  stop : Option Int := none
  deriving DecidableEq, Repr, Inhabited

structure Symbol where
  kind : String
  value : Value := .none
  span : Span := {}
  isToken : Bool := false
  deriving Inhabited

namespace Symbol

def describeNumber (n : Option Int) : String := n.elim "None" toString

/-- The symbol as it is shown in messages: a token with everything that is known of it. -/
def describe (s : Symbol) : String :=
  if s.isToken then
    "Token(type=" ++ Text.quoted s.kind ++ ", value=" ++ s.value.describe ++
      ", lineno=" ++ describeNumber s.span.line ++ ", index=" ++ describeNumber s.span.start ++
      ", end=" ++ describeNumber s.span.stop ++ ")"
  else s.kind

def asValue (s : Symbol) : Value := .token s.kind s.value

end Symbol

/-- A symbol on the stack with the state it led to. -/
structure Cell where
  state : Nat
  symbol : Symbol
  deriving Inhabited

def emptyStack : List Cell := [⟨0, { kind := Grammar.endMark }⟩]

/-- What is done about an error in the input. -/
inductive Recovery where
  | report
  | note
  | skip
  | drop
  | restart
  deriving DecidableEq, Repr, Inhabited

/-- Why parsing stops with an error of its own. -/
inductive ParseFault where
  /-- An action changes the first value of a production that has none. -/
  | noValue
  | noTarget
  | endless
  deriving DecidableEq, Repr, Inhabited

structure Parse where
  stack : List Cell := emptyStack
  lookahead : Option Symbol := none
  waiting : List Symbol := []
  input : List Symbol
  broken : Bool := false
  errorCount : Nat := 0
  handled : Bool := false
  /-- The errors that were noted, the last one first; none stands for the end of the input. -/
  noted : List (Option (String × Value)) := []
  reported : String := ""
  deriving Inhabited

inductive Ending where
  | value (v : Value) (span : Span)
  | fault (f : ParseFault)
  | brokenInput
  deriving Inhabited

def nameSet (names : Table Access) : String :=
  "\x7b" ++ String.intercalate ", " names.keys ++ "\x7d"

def noSymbol (names : Table Access) (name : String) : Value :=
  .failure ("No symbol " ++ name ++ ". Must be one of " ++ nameSet names ++ ".")

/-- A part of a value: of each item of a list, or of a row of values. -/
def partOf (n : Nat) : Value → Value
  | .list items => .list (items.map fun
    | .tuple parts | .list parts => (parts[n]?).getD .none
    | _ => .none)
  | .tuple parts => (parts[n]?).getD .none
  | _ => .none

def valueAt (symbols : List Symbol) (a : Access) : Value :=
  let v := ((symbols[a.symbol]?).getD default).value
  a.part.elim v (partOf · v)

def numberValue (n : Option Int) : Value := n.elim .none .number

/-- The value that a name asks for, or the error that there is none. -/
def valueNamed (names : Table Access) (symbols : List Symbol) (name : String) : Value :=
  match names.find? name with
  | some a => valueAt symbols a
  | none => noSymbol names name

/-- The first number of symbols that is known and satisfies a test; if there is none, the value
that its name asks for. -/
def firstNumber (names : Table Access) (symbols : List Symbol) (name : String) (test : Int → Bool)
    (number : Span → Option Int) : Value :=
  match (symbols.filterMap fun s => number s.span).find? test with
  | some n => .number n
  | none => valueNamed names symbols name

def lastStop (symbols : List Symbol) : Option Int :=
  ((symbols.filterMap (·.span.stop)).filter (· != 0)).getLast?

def changed : Value := .text "changed"

def changeTop : List Cell → List Cell
  | [] => []
  | c :: rest => { c with symbol := { c.symbol with value := changed } } :: rest

def topSymbols (stack : List Cell) (n : Nat) : List Symbol :=
  ((stack.take n).map (·.symbol)).reverse

/-- What an action makes of the symbols of a production: the value, the stack, and whether an
error is taken as handled. -/
def perform (r : Rule) (stack : List Cell) : Except ParseFault (Value × List Cell × Bool) :=
  let p := r.production
  let n := p.symbols.length
  let symbols := topSymbols stack n
  let values := symbols.map (·.value)
  let named := fun (vs : List Value) => Value.list (.text p.name :: vs)
  let done := fun (v : Value) => Except.ok (v, stack, false)
  match r.action with
  | .tree => done (named values)
  | .whole => done (.tuple (.text p.name :: values))
  | .positions =>
    let line := firstNumber r.names symbols "lineno" (· != 0) Span.line
    let start := firstNumber r.names symbols "index" (fun _ => true) Span.start
    done (named (line :: start :: numberValue (lastStop symbols) :: values))
  | .names =>
    done (named (r.names.entries.map fun e => .list [.text e.1, valueAt symbols e.2]))
  | .missing =>
    done (named [valueNamed r.names symbols "no_such_symbol",
      .failure "Can't reassign the value of attribute 'x'"])
  | .before =>
    let v := if n + 1 < stack.length then ((stack[n]?).map (·.symbol.value)).getD .none else .none
    done (named [.number n, v])
  | .changeFirst =>
    match values with
    | [] => .error .noValue
    | _ :: rest => done (named (changed :: rest))
  | .changeLast =>
    let stack := changeTop stack
    .ok (named ((topSymbols stack n).map (·.value)), stack, false)
  | .errorHandled => .ok (named values, stack, true)
  | .info =>
    let known := stack.reverse.map (·.symbol.describe)
    done (named [.text ("Production(" ++ p.describe ++ ")"), .number n,
      .list (p.symbols.map .text), .text ("[" ++ String.intercalate ", " known ++ "]")])
  | .first => done (values.headD .none)
  | .noItems => done (.list [])
  | .oneItem => done (.list (values.take 1))
  | .addItem =>
    match values with
    | .list items :: item :: _ => done (.list (items ++ [item]))
    | _ => done .none
  | .together => done (.tuple values)
  | .absent count => done (.tuple (List.replicate count .none))

namespace Parse

def state (s : Parse) : Nat := (s.stack.head?.map (·.state)).getD 0

def isBroken (s : Parse) : Bool :=
  s.broken && s.lookahead.isNone && s.waiting.isEmpty && s.input.isEmpty

/-- Takes the next symbol in view; after the last one comes the end. -/
def look (s : Parse) : Parse × Symbol :=
  match s.lookahead, s.waiting, s.input with
  | some l, _, _ => (s, l)
  | none, l :: rest, _ => ({ s with lookahead := some l, waiting := rest }, l)
  | none, [], l :: rest => ({ s with lookahead := some l, input := rest }, l)
  | none, [], [] =>
    let l : Symbol := { kind := Grammar.endMark }
    ({ s with lookahead := some l }, l)

def takeToken (s : Parse) : Parse × Option Symbol :=
  match s.input with
  | [] => (s, none)
  | t :: rest => ({ s with input := rest }, some t)

def reportText : Option Symbol → String
  | none => "sly: Parse error in input. EOF\n"
  | some t =>
    match t.span.line.filter (· != 0) with
    | some line => "sly: Syntax error at line " ++ toString line ++ ", token=" ++ t.kind ++ "\n"
    | none => "sly: Syntax error, token=" ++ t.kind

/-- Does something about an error at a token, or at the end. The token with which to go on is given,
if there is one. -/
def recover (s : Parse) (r : Recovery) (token : Option Symbol) : Parse × Option Symbol :=
  if r = .report then ({ s with reported := s.reported ++ reportText token }, none)
  else
    let s := { s with noted := (token.map fun t => (t.kind, t.value)) :: s.noted }
    match r with
    | .skip =>
      let rest := (s.input.dropWhile (·.kind != ";")).drop 1
      { s with input := rest, handled := true }.takeToken
    | .drop => { s with handled := true }.takeToken
    | .restart => ({ s with stack := emptyStack }, none)
    | _ => (s, none)

def errorSymbol (l : Symbol) : Symbol :=
  { kind := Grammar.errorMark, value := l.asValue, span := l.span }

/-- What a step gives: the state of the parse, and how it ends if it does. -/
abbrev Step := Parse × Option Ending

/-- Goes on after an error that was not recovered from: the symbol in view is passed over, read as
an error, or a symbol of the stack is taken back. -/
def unwind (s : Parse) (l : Symbol) : Step :=
  if l.kind = Grammar.endMark then (s, some (.value .none {}))
  else match s.stack with
    | top :: below@(_ :: _) =>
      if l.kind = Grammar.errorMark then ({ s with stack := below }, none)
      else if top.symbol.kind = Grammar.errorMark then ({ s with lookahead := none }, none)
      else ({ s with waiting := l :: s.waiting, lookahead := some (errorSymbol l) }, none)
    | _ => ({ s with lookahead := none, waiting := [] }, none)

def errorDistance : Nat := 3

def fail (s : Parse) (r : Recovery) (l : Symbol) : Step :=
  if s.errorCount = 0 ∨ s.handled then
    let s := { s with errorCount := errorDistance, handled := false }
    let token := if l.kind = Grammar.endMark then none else some l
    match s.recover r token with
    | (s, some t) => ({ s with lookahead := some t, handled := true }, none)
    | (s, none) => s.unwind l
  else { s with errorCount := errorDistance }.unwind l

def spanOf (symbols : List Symbol) : Span :=
  match symbols.head?, symbols.getLast? with
  | some f, some l => ⟨f.span.line, f.span.start, l.span.stop⟩
  | _, _ => {}

def reduce (s : Parse) (p : Parser) (number : Nat) : Step :=
  match p.rules[number - 1]? with
  | none => (s, some (.fault .noTarget))
  | some r =>
    let n := r.production.symbols.length
    let span := if p.trackPositions then spanOf (topSymbols s.stack n) else {}
    match perform r s.stack with
    | .error f => (s, some (.fault f))
    | .ok (value, stack, handled) =>
      let below := stack.drop n
      let top := (below.head?.map (·.state)).getD 0
      match ((p.table.targets[top]?).getD {}).find? r.production.name with
      | none => (s, some (.fault .noTarget))
      | some target =>
        let symbol : Symbol := { kind := r.production.name, value := value, span := span }
        ({ s with stack := ⟨target, symbol⟩ :: below, handled := s.handled || handled }, none)

def step (p : Parser) (r : Recovery) (s : Parse) : Step :=
  match p.table.onlyReduction? s.state with
  | some n => s.reduce p n
  | none =>
    if s.isBroken then (s, some .brokenInput)
    else
    let (s, l) := s.look
    match ((p.table.moves[s.state]?).getD {}).find? l.kind with
    | some (.shift n) =>
      ({ s with stack := ⟨n, l⟩ :: s.stack, lookahead := none,
                errorCount := s.errorCount - 1 }, none)
    | some (.reduce 0) =>
      let top := (s.stack.head?.map (·.symbol)).getD default
      (s, some (.value top.value top.span))
    | some (.reduce n) => s.reduce p n
    | some .refuse | none => s.fail r l

def run (p : Parser) (r : Recovery) : Nat → Parse → Parse × Ending
  | 0, s => (s, .fault .endless)
  | n + 1, s =>
    match s.step p r with
    | (s, none) => run p r n s
    | (s, some e) => (s, e)

end Parse

/-- What a parse leaves: how it ended, the errors that were noted, and what was reported. -/
structure ParseResult where
  ending : Ending
  noted : List (Option (String × Value))
  reported : String
  deriving Inhabited

namespace Parser

def stepBound (p : Parser) (tokens : Nat) : Nat :=
  8 * (tokens + 2) * (tokens + 2) * (p.automaton.states.size + 2) * (p.rules.size + 2)

def parse (p : Parser) (r : Recovery) (tokens : List Symbol) (broken : Bool) : ParseResult :=
  let start : Parse := { input := tokens, broken := broken }
  let (s, ending) := Parse.run p r (p.stepBound tokens.length) start
  ⟨ending, s.noted.reverse, s.reported⟩

end Parser

end GdScribe.Grammar
