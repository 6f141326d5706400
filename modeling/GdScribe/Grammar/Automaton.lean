import GdScribe.Grammar.Analysis

/-!
# The automaton of a grammar

A state of the automaton is a list of items: productions with a dot that shows how far they have
been read.

* `Item`: a production with a dot.
* `closure`: the items with all productions that can start at their dots.
* `Automaton.ofGrammar?`: all states, found breadth first, with the states that symbols lead to.
  Two states differ if the items before closure differ, be it only in order.
-/

namespace GdScribe.Grammar

/-- A production, by its number, with the number of symbols before the dot. -/
structure Item where
  production : Nat
  dot : Nat
  deriving DecidableEq, Repr, Inhabited

/-- A state: the items it was reached with, all its items, and the states that symbols lead to. -/
structure State where
  kernel : List Item
  items : List Item
  edges : Table Nat := {}
  deriving DecidableEq, Repr, Inhabited

/-- The states of a grammar; the first one is the start. -/
structure Automaton where
  productions : Array Production := #[]
  states : Array State := #[]
  deriving Inhabited

namespace Automaton

def production (a : Automaton) (i : Item) : Production := (a.productions[i.production]?).getD default

def next? (a : Automaton) (i : Item) : Option String := (a.production i).symbols[i.dot]?

def isComplete (a : Automaton) (i : Item) : Bool := i.dot == (a.production i).symbols.length

def dotted (a : Automaton) (i : Item) : List String :=
  let symbols := (a.production i).symbols
  symbols.take i.dot ++ "." :: symbols.drop i.dot

def describe (a : Automaton) (i : Item) : String :=
  (a.production i).name ++ " -> " ++ String.intercalate " " (a.dotted i)

def starting (a : Automaton) (i : Item) : List Production :=
  match a.next? i with
  | none => []
  | some s => (a.productions.toList.drop 1).filter (·.name == s)

/-- Goes through items in the order in which they are found; `added` are the productions whose
start is among them, and the first argument bounds their number. -/
def closeWithin (a : Automaton) : Nat → List Nat → List Item → List Item
  | 0, _, items => items
  | _, _, [] => []
  | n + 1, added, i :: rest =>
    let new := ((a.starting i).map (·.number)).filter (!added.contains ·)
    i :: a.closeWithin n (added ++ new) (rest ++ new.map fun p => ⟨p, 0⟩)

def closure (a : Automaton) (kernel : List Item) : List Item :=
  a.closeWithin (kernel.length + a.productions.size) [] kernel

def advance (a : Automaton) (items : List Item) (symbol : String) : List Item :=
  (items.filter fun i => a.next? i == some symbol).map fun i => { i with dot := i.dot + 1 }

def symbolsOf (a : Automaton) (items : List Item) : List String :=
  (items.flatMap fun i => (a.production i).distinct).eraseDups

def stateOf (a : Automaton) (kernel : List Item) : Automaton × Nat :=
  match a.states.findIdx? (·.kernel == kernel) with
  | some n => (a, n)
  | none =>
    ({ a with states := a.states.push { kernel := kernel, items := a.closure kernel } },
      a.states.size)

def addEdge (n : Nat) (a : Automaton) (symbol : String) : Automaton :=
  let items := ((a.states[n]?).getD default).items
  match a.advance items symbol with
  | [] => a
  | kernel =>
    let (a, target) := a.stateOf kernel
    { a with states := a.states.modify n fun s => { s with edges := s.edges.put symbol target } }

/-- Goes through the states from number `n` on; the first argument bounds their number. -/
def explore : Nat → Nat → Automaton → Automaton
  | 0, _, a => a
  | fuel + 1, n, a =>
    match a.states[n]? with
    | none => a
    | some s => explore fuel (n + 1) ((a.symbolsOf s.items).foldl (addEdge n) a)

/-- A bound for the number of states: the lists without repetition of so many items. -/
def stateBound (items : Nat) : Nat := Nat.pow (items + 1) (items + 1)

def ofGrammar? (g : Grammar) : Option Automaton := do
  let zeroth ← g.zeroth
  let productions := zeroth :: g.productions
  let a : Automaton := { productions := productions.toArray }
  let (a, _) := a.stateOf [⟨0, 0⟩]
  let items := productions.foldl (fun n p => n + (p.symbols.length + 1)) 0
  return explore (stateBound items) 0 a

def state (a : Automaton) (n : Nat) : State := (a.states[n]?).getD default

def target? (a : Automaton) (n : Nat) (symbol : String) : Option Nat :=
  (a.state n).edges.find? symbol

def itemsOf (p : Production) : List Item :=
  (List.range (p.symbols.length + 1)).map fun d => ⟨p.number, d⟩

end Automaton

def allItems (g : Grammar) : Except Fault (List (List String)) :=
  match g.zeroth with
  | none => .error .noZeroth
  | some zeroth =>
    let productions := zeroth :: g.productions
    let a : Automaton := { productions := productions.toArray }
    .ok (productions.map fun p => (Automaton.itemsOf p).map fun i =>
      "LRItem(" ++ a.describe i ++ ")")

end GdScribe.Grammar
