import GdScribe.Grammar.Lookahead

/-!
# Parse tables

A parse table says what to do in a state when a terminal comes, and where a nonterminal leads.

* `Move`: shift, reduce, or refuse. Reducing by production zero accepts the input.
* A conflict between shifting and reducing is decided by precedence, and by shifting if there is
  none. A conflict between two productions is decided for the one that was written first.
* `ParseTable.ofGrammar?`: builds the table, and keeps a listing and the conflicts.
-/

namespace GdScribe.Grammar

/-- What to do when a terminal comes. -/
inductive Move where
  | shift (state : Nat)
  /-- Reduces by a production; by the one with number zero, the input is accepted. -/
  | reduce (production : Nat)
  | refuse
  deriving DecidableEq, Repr, Inhabited

/-- How a conflict between shifting and reducing was decided. -/
inductive Decision where
  | shift
  | reduce
  deriving DecidableEq, Repr, Inhabited

def Decision.name : Decision → String
  | .shift => "shift"
  | .reduce => "reduce"

/-- A conflict between shifting and reducing. -/
structure ShiftConflict where
  state : Nat
  terminal : String
  decision : Decision
  deriving DecidableEq, Repr, Inhabited

/-- A conflict between two productions. -/
structure ReduceConflict where
  state : Nat
  chosen : Nat
  rejected : Nat
  deriving DecidableEq, Repr, Inhabited

/-- A parse table with its listing. -/
structure ParseTable where
  moves : Array (Table Move) := #[]
  targets : Array (Table Nat) := #[]
  listing : List String := []
  shiftConflicts : List ShiftConflict := []
  reduceConflicts : List ReduceConflict := []
  reductions : Array Int := #[]
  deriving Inhabited

/-- The part of a table for one state, while it is built. -/
structure Row where
  moves : Table Move := {}
  asked : Table Item := {}
  wishes : List (String × Item × String) := []
  lines : List String := []
  deriving Inhabited

/-- The state of the construction: a row, the conflicts and the counts. -/
structure Build where
  row : Row := {}
  table : ParseTable
  deriving Inhabited

namespace Build

def addLine (b : Build) (line : String) : Build :=
  { b with row := { b.row with lines := b.row.lines ++ [line] } }

def count (b : Build) (production : Nat) (delta : Int) : Build :=
  { b with table := { b.table with
      reductions := b.table.reductions.modify production (· + delta) } }

def setMove (b : Build) (terminal : String) (m : Move) (i : Item) : Build :=
  { b with row := { b.row with
      moves := b.row.moves.put terminal m, asked := b.row.asked.put terminal i } }

def refuse (b : Build) (terminal : String) : Build :=
  { b with row := { b.row with moves := b.row.moves.put terminal .refuse } }

def wish (b : Build) (terminal : String) (i : Item) (text : String) : Build :=
  { b with row := { b.row with wishes := b.row.wishes ++ [(terminal, i, text)] } }

def noteShift (b : Build) (state : Nat) (terminal : String) (d : Decision) : Build :=
  let b := b.addLine ("  ! shift/reduce conflict for " ++ terminal ++ " resolved as " ++ d.name)
  { b with table := { b.table with
      shiftConflicts := b.table.shiftConflicts ++ [⟨state, terminal, d⟩] } }

def noteReduce (b : Build) (c : ReduceConflict) : Build :=
  { b with table := { b.table with reduceConflicts := b.table.reduceConflicts ++ [c] } }

end Build

namespace ParseTable

/-- What the construction works on. -/
structure Source where
  grammar : Grammar
  automaton : Automaton
  lookaheads : Automaton.Lookaheads

namespace Source

def production (s : Source) (n : Nat) : Production := (s.automaton.productions[n]?).getD default

def precedenceOf (s : Source) (terminal : String) : Precedence :=
  (s.grammar.precedence.find? terminal).getD {}

def reduceAgainst (s : Source) (state : Nat) (i : Item) (terminal : String) (b : Build) :
    Move → Build
  | .refuse => (b.setMove terminal (.reduce i.production) i).count i.production 1
  | .shift _ =>
    let sp := s.precedenceOf terminal
    let rp := (s.production i.production).precedence
    if sp.level < rp.level || sp.level == rp.level && rp.assoc == .left then
      let b := b.setMove terminal (.reduce i.production) i
      let b := if sp.level = 0 ∧ rp.level = 0 then b.noteShift state terminal .reduce else b
      b.count i.production 1
    else if sp.level == rp.level && rp.assoc == .nonassoc then b.refuse terminal
    else if rp.level = 0 then b.noteShift state terminal .shift
    else b
  | .reduce n =>
    let old := s.production n
    let new := s.production i.production
    let (b, conflict) :=
      if new.origin.line < old.origin.line then
        (((b.setMove terminal (.reduce i.production) i).count i.production 1).count old.number (-1),
          (⟨state, new.number, old.number⟩ : ReduceConflict))
      else (b, ⟨state, old.number, new.number⟩)
    let b := b.noteReduce conflict
    let kept := (b.row.asked.find? terminal).getD i
    b.addLine ("  ! reduce/reduce conflict for " ++ terminal ++ " resolved using rule " ++
      toString kept.production ++ " (" ++ s.automaton.describe kept ++ ")")

def askReduce (s : Source) (state : Nat) (i : Item) (b : Build) (terminal : String) : Build :=
  let b := b.wish terminal i
    ("reduce using rule " ++ toString i.production ++ " (" ++ s.automaton.describe i ++ ")")
  s.reduceAgainst state i terminal b ((b.row.moves.find? terminal).getD .refuse)

def shiftAgainst (s : Source) (state target : Nat) (i : Item) (terminal : String) (b : Build) :
    Move → Build
  | .refuse => b.setMove terminal (.shift target) i
  | .shift _ => b
  | .reduce _ =>
    let asked := ((b.row.asked.find? terminal).getD i).production
    let rp := (s.production asked).precedence
    let sp := s.precedenceOf terminal
    if rp.level < sp.level || sp.level == rp.level && rp.assoc == .right then
      let b := (b.count asked (-1)).setMove terminal (.shift target) i
      if rp.level = 0 then b.noteShift state terminal .shift else b
    else if sp.level == rp.level && rp.assoc == .nonassoc then b.refuse terminal
    else if sp.level = 0 ∧ rp.level = 0 then b.noteShift state terminal .reduce
    else b

def askShift (s : Source) (state : Nat) (i : Item) (b : Build) : Build :=
  match s.automaton.next? i with
  | none => b
  | some terminal =>
    if !s.grammar.terminals.contains terminal then b
    else match s.automaton.target? state terminal with
      | none => b
      | some target =>
        let b := b.wish terminal i ("shift and go to state " ++ toString target)
        s.shiftAgainst state target i terminal b ((b.row.moves.find? terminal).getD .refuse)

def ask (s : Source) (state : Nat) (b : Build) (i : Item) : Build :=
  if !s.automaton.isComplete i then s.askShift state i b
  else if (s.automaton.production i).name = Grammar.startName then
    b.setMove Grammar.endMark (.reduce 0) i
  else (Automaton.lookaheadsOf s.lookaheads state i).foldl (s.askReduce state i) b

def moveLines (r : Row) : List String :=
  r.wishes.filterMap fun (terminal, i, text) =>
    if r.asked.find? terminal = some i then
      some ("    " ++ Grammar.padded terminal 15 ++ " " ++ text)
    else none

def targets (s : Source) (state : Nat) : Table Nat :=
  let items := (s.automaton.state state).items
  .ofList (((s.automaton.symbolsOf items).filter s.grammar.nonterminals.contains).filterMap fun n =>
    (s.automaton.target? state n).map (n, ·))

def addState (s : Source) (t : ParseTable) (state : Nat) : ParseTable :=
  let items := (s.automaton.state state).items
  let head := ("\nstate " ++ toString state ++ "\n") ::
    items.map fun i => "    (" ++ toString i.production ++ ") " ++ s.automaton.describe i
  let b := items.foldl (s.ask state) { row := { lines := head }, table := t }
  let targets := s.targets state
  let lines := b.row.lines ++ moveLines b.row ++ [""] ++ targets.entries.map fun e =>
    "    " ++ Grammar.padded e.1 30 ++ " shift and go to state " ++ toString e.2
  { b.table with
    moves := b.table.moves.push b.row.moves
    targets := b.table.targets.push targets
    listing := b.table.listing ++ [String.intercalate "\n" lines] }

end Source

def ofGrammar? (g : Grammar) : Option (Automaton × ParseTable) := do
  let a ← Automaton.ofGrammar? g
  let s : Source := ⟨g, a, a.lookaheads g⟩
  let start : ParseTable := { reductions := Array.replicate a.productions.size 0 }
  return (a, (List.range a.states.size).foldl s.addState start)

def onlyReduction? (t : ParseTable) (state : Nat) : Option Nat :=
  match ((t.moves[state]?).getD {}).values with
  | [.reduce n] => if n = 0 then none else some n
  | _ => none

def onlyRefuses (t : ParseTable) : Bool := t.moves.any fun m => m.values == [.refuse]

def reduceLines (describe : Nat → String) (c : ReduceConflict) : List String :=
  ["reduce/reduce conflict in state " ++ toString c.state ++ " resolved using rule " ++
      describe c.chosen,
    "rejected rule (" ++ describe c.rejected ++ ") in state " ++ toString c.state]

def describe (t : ParseTable) (a : Automaton) : String :=
  let describe := fun n => ((a.productions[n]?).getD default).describe
  let never := ((t.reduceConflicts.map (·.rejected)).filter fun n =>
    (t.reductions[n]?).getD 0 == 0).eraseDups
  let conflicts :=
    if t.shiftConflicts.isEmpty && t.reduceConflicts.isEmpty then []
    else ["\nConflicts:\n"] ++
      t.shiftConflicts.map (fun c => "shift/reduce conflict for " ++ c.terminal ++ " in state " ++
        toString c.state ++ " resolved as " ++ c.decision.name) ++
      t.reduceConflicts.eraseDups.flatMap (reduceLines describe) ++
      never.map fun n => "Rule (" ++ describe n ++ ") is never reduced"
  String.intercalate "\n" (t.listing ++ conflicts)

end ParseTable

end GdScribe.Grammar
