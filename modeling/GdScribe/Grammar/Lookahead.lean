import GdScribe.Grammar.Automaton

/-!
# Lookaheads

Which terminals can follow when a production has been read to its end in a state. They are found
along transitions over nonterminals: what can be read after one, and what follows productions that
end with one.

* `Transition`: a state with a nonterminal that leads on.
* `spread`: collects sets along a relation. Transitions that are related both ways have one set in
  common, and whatever is added to it later is added for all of them.
* `lookaheads`: the terminals that can follow complete items.
-/

namespace GdScribe.Grammar

/-- A state with a nonterminal that leads on from it. -/
structure Transition where
  state : Nat
  symbol : String
  deriving DecidableEq, Repr, Inhabited

/-- Sets of terminals that several transitions can have in common. -/
structure Pool where
  sets : Array (List String) := #[]
  owner : Array Nat := #[]
  deriving Inhabited

structure Spread where
  pool : Pool
  depth : Array (Option Nat)
  finished : Array Bool
  path : List Nat := []
  deriving Inhabited

namespace Pool

def setOf (p : Pool) (x : Nat) : List String :=
  ((p.owner[x]?).bind fun i => p.sets[i]?).getD []

def absorb (p : Pool) (x y : Nat) : Pool :=
  match p.owner[x]? with
  | none => p
  | some i =>
    let more := p.setOf y
    { p with sets := p.sets.modify i fun s => Grammar.union s more }

def share (p : Pool) (x y : Nat) : Pool :=
  { p with owner := p.owner.modify y fun i => (p.owner[x]?).getD i }

end Pool

namespace Spread

/-- Ends the way at `x`: all transitions met since then have its set. -/
def close (x : Nat) (s : Spread) : List Nat → Spread
  | [] => { s with path := [] }
  | y :: rest =>
    let s := { s with pool := s.pool.share x y, finished := s.finished.modify y fun _ => true }
    if y = x then { s with path := rest } else close x s rest

/-- The depth that counts for a transition: one that is finished has none. -/
def depthOf (s : Spread) (x : Nat) : Option Nat :=
  if (s.finished[x]?).getD false then none else (s.depth[x]?).getD none

def least : Option Nat → Option Nat → Option Nat
  | some m, some n => some (min m n)
  | m, none => m
  | none, n => n

/-- Visits a transition and those that it is related to; the first argument bounds how many are on
the way. -/
def visit (related : Nat → List Nat) : Nat → Nat → Spread → Spread
  | 0, _, s => s
  | n + 1, x, s =>
    let here := s.path.length + 1
    let s := { s with path := x :: s.path, depth := s.depth.modify x fun _ => some here }
    let s := (related x).foldl (fun s y =>
      let s := if ((s.depth[y]?).getD none).isNone then visit related n y s else s
      let low := least (s.depthOf x) (s.depthOf y)
      { s with depth := s.depth.modify x fun _ => low, pool := s.pool.absorb x y }) s
    if s.depthOf x = some here then close x s s.path else s

end Spread

def spread (n : Nat) (related : Nat → List Nat) (pool : Pool) : Pool :=
  let start : Spread :=
    { pool := pool, depth := Array.replicate n none, finished := Array.replicate n false }
  ((List.range n).foldl (fun s x =>
    if ((s.depth[x]?).getD none).isNone then Spread.visit related (n + 1) x s else s) start).pool

namespace Automaton

def nullableStep (a : Automaton) (names : List String) : List String :=
  (names ++ ((a.productions.toList.drop 1).filter fun p =>
    p.symbols.all names.contains).map (·.name)).eraseDups

def nullable (a : Automaton) : List String := Nat.repeat a.nullableStep (a.productions.size + 1) []

def nextSymbols (a : Automaton) (state : Nat) : List String :=
  (a.state state).items.filterMap a.next?

def transitionsFrom (a : Automaton) (g : Grammar) (state : Nat) : List Transition :=
  ((a.nextSymbols state).filter g.nonterminals.contains).eraseDups.map fun s => ⟨state, s⟩

def transitions (a : Automaton) (g : Grammar) : List Transition :=
  (List.range a.states.size).flatMap (a.transitionsFrom g)

def directReads (a : Automaton) (g : Grammar) (t : Transition) : List String :=
  let after := (a.target? t.state t.symbol).elim [] a.nextSymbols
  let found := (after.filter g.terminals.contains).eraseDups
  let atStart := t.state = 0 ∧ (g.zeroth.map (·.symbols)) = some [t.symbol]
  if atStart then found ++ [Grammar.endMark] else found

/-- The transitions over nonterminals that can stand for nothing after a transition. -/
def reads (a : Automaton) (nullable : List String) (t : Transition) : List Transition :=
  match a.target? t.state t.symbol with
  | none => []
  | some n => ((a.nextSymbols n).filter nullable.contains).map fun s => ⟨n, s⟩

/-- Follows symbols from a state. The transitions after which only nothing is left are collected,
and the last state is given. -/
def followSymbols (a : Automaton) (g : Grammar) (nullable : List String) :
    Nat → List String → List Transition × Nat
  | n, [] => ([], n)
  | n, s :: rest =>
    let (more, last) := a.followSymbols g nullable ((a.target? n s).getD 0) rest
    let ends := g.nonterminals.contains s &&
      rest.all fun r => !g.terminals.contains r && nullable.contains r
    (if ends then ⟨n, s⟩ :: more else more, last)

/-- Whether the symbols that `r` has before its dot are those of `i` one place further on. -/
def agrees (a : Automaton) (i r : Item) : Bool :=
  let p := a.production i
  let q := a.production r
  p.name == q.name && p.symbols.length == q.symbols.length &&
    (q.symbols.take r.dot == ((a.dotted i).drop 1).take r.dot)

/-- What following the productions of a transition gives: the transitions that end them, and the
items of the last states that belong to them. -/
def trace (a : Automaton) (g : Grammar) (nullable : List String) (t : Transition) :
    List Transition × List (Nat × Item) :=
  let items := (a.state t.state).items.filter fun i => (a.production i).name == t.symbol
  let found := items.map fun i =>
    let (ends, last) := a.followSymbols g nullable t.state ((a.production i).symbols.drop i.dot)
    (ends, ((a.state last).items.filter (a.agrees i)).map fun r => (last, r))
  (found.flatMap (·.1), found.flatMap (·.2))

abbrev Lookaheads := List ((Nat × Item) × List String)

def addLookaheads (found : Lookaheads) (key : Nat × Item) (symbols : List String) : Lookaheads :=
  match found with
  | [] => [(key, Grammar.union [] symbols)]
  | e :: rest =>
    if e.1 = key then (key, Grammar.union e.2 symbols) :: rest
    else e :: addLookaheads rest key symbols

def lookaheads (a : Automaton) (g : Grammar) : Lookaheads :=
  let nullable := a.nullable
  let ts := a.transitions g
  let number := fun (t : Transition) => ts.idxOf t
  let all := ts.toArray
  let traces := (ts.map (a.trace g nullable)).toArray
  let pool : Pool :=
    { sets := all.map (a.directReads g), owner := (List.range all.size).toArray }
  let related := all.map fun t => (a.reads nullable t).map number
  let pool := spread all.size (fun x => (related[x]?).getD []) pool
  let included := all.map fun t =>
    (List.range all.size).flatMap fun x =>
      (((traces[x]?).map (·.1)).getD []).filterMap fun u => if u = t then some x else none
  let pool := spread all.size (fun x => (included[x]?).getD []) pool
  (List.range all.size).foldl (fun found x =>
    (((traces[x]?).map (·.2)).getD []).foldl
      (fun found key => addLookaheads found key (pool.setOf x)) found) []

def lookaheadsOf (found : Lookaheads) (state : Nat) (i : Item) : List String :=
  (found.lookup (state, i)).getD []

end Automaton

end GdScribe.Grammar
