import GdScribe.Grammar.Basic

/-!
# What follows from a grammar

* `unreachable`, `endless`: nonterminals that the start never leads to, and those that never lead
  to a text.
* `undefinedSymbols`, `unusedRules`, `unusedPrecedence`: what was written and has no use.
* `computeFirst`, `computeFollow`: which terminals can stand at the start of a symbol and after it.
  The sets are kept, and computed only once.
-/

namespace GdScribe.Grammar

def isKnown (g : Grammar) (symbol : String) : Bool :=
  g.isDefined symbol || g.terminals.contains symbol || symbol == errorMark

def oneStep (g : Grammar) (known : List String) : List String :=
  (known ++ known.flatMap fun s => (g.productionsOf s).flatMap (·.symbols)).eraseDups

def unreachable (g : Grammar) : Except Fault (List String) :=
  match g.zeroth with
  | none => .error .noStart
  | some p =>
    let reached := Nat.repeat g.oneStep (g.nonterminals.entries.length + 1) (p.symbols.take 1)
    .ok (g.nonterminals.keys.filter (!reached.contains ·))

def endingStep (g : Grammar) (ending : List String) : List String :=
  (ending ++ (g.productions.filter fun p => p.symbols.all ending.contains).map (·.name)).eraseDups

def endless (g : Grammar) : List String :=
  let always := (endMark :: g.terminals.keys).filter (!g.nonterminals.contains ·)
  let ending := Nat.repeat g.endingStep (g.nonterminals.entries.length + 1) always
  g.nonterminals.keys.filter fun s => !ending.contains s && g.isKnown s

/-- The symbols that are used and never defined, with the productions that use them. -/
def undefinedSymbols (g : Grammar) : List (String × Production) :=
  (g.allProductions.filterMap id).flatMap fun p =>
    (p.symbols.filter (!g.isKnown ·)).map fun s => (s, p)

/-- The first production of each nonterminal that no production uses. -/
def unusedRules (g : Grammar) : List Production :=
  (g.nonterminals.entries.filter (·.2.isEmpty)).filterMap fun e => (g.productionsOf e.1).head?

def unusedPrecedence (g : Grammar) : List (String × Assoc) :=
  (g.precedence.entries.filter fun e =>
    !(g.terminals.contains e.1 || g.usedPrecedence.contains e.1)).map fun e => (e.1, e.2.assoc)

def emptyMark : String := "<empty>"

abbrev Sets := Table (List String)

def union (items others : List String) : List String :=
  others.foldl (fun acc s => if acc.contains s then acc else acc ++ [s]) items

/-- The terminals that can start a row of symbols, after those found before. -/
def firstOf (sets : Sets) (found : List String) : List String → Except Fault (List String)
  | [] => .ok (found ++ [emptyMark])
  | s :: rest =>
    match sets.find? s with
    | none => .error (.unknownSymbol s)
    | some starts =>
      let found := union found (starts.filter (· != emptyMark))
      if starts.contains emptyMark then firstOf sets found rest else .ok found

abbrev SetsM := EStateM Fault Sets

def orFail {α : Type} (r : Except Fault α) : SetsM α :=
  match r with
  | .ok a => return a
  | .error f => throw f

def extend (name : String) (symbols : List String) : SetsM Unit :=
  modify fun sets => sets.put name (union ((sets.find? name).getD []) symbols)

/-- Adds to the first set of a nonterminal what its productions give. -/
def firstStep (g : Grammar) (name : String) : SetsM Unit := do
  if !g.isDefined name then throw (.unknownSymbol name)
  (g.productionsOf name).forM fun p => do
    extend name (← orFail (firstOf (← get) [] p.symbols))

def untilStable (round : SetsM Unit) : Nat → SetsM Unit
  | 0 => return
  | n + 1 => do
    let before ← get
    round
    if before = (← get) then return else untilStable round n

/-- How many rounds can change something: each one adds a symbol to a set. -/
def rounds (g : Grammar) : Nat :=
  (g.nonterminals.entries.length + 1) *
    (g.terminals.entries.length + g.nonterminals.entries.length + 3) + 1

def onSets (get : Grammar → Sets) (put : Sets → Grammar → Grammar) (act : SetsM Unit) :
    GrammarM Unit := fun g =>
  match act (get g) with
  | .ok () sets => .ok () (put sets g)
  | .error f sets => .error f (put sets g)

def computeFirst : GrammarM Unit := do
  let g ← get
  if g.first.isEmpty then
    onSets (·.first) (fun s g => { g with first := s }) do
      g.terminals.keys.forM fun t => modify (·.put t [t])
      modify (·.put endMark [endMark])
      g.nonterminals.keys.forM fun n => modify (·.put n [])
      untilStable (g.nonterminals.keys.forM g.firstStep) g.rounds

def followStep (g : Grammar) (name : String) : List String → SetsM Unit
  | [] => return
  | s :: rest => do
    if g.nonterminals.contains s then
      let starts ← orFail (firstOf g.first [] rest)
      extend s (starts.filter (· != emptyMark))
      if starts.contains emptyMark then extend s (((← get).find? name).getD [])
    followStep g name rest

def computeFollow (start : Option String) : GrammarM Unit := do
  if (← get).follow.isEmpty then
    if (← get).first.isEmpty then computeFirst
    let g ← get
    onSets (·.follow) (fun s g => { g with follow := s }) do
      g.nonterminals.keys.forM fun n => modify (·.put n [])
      let start ← match start.filter (!·.isEmpty), g.productions with
        | some name, _ => pure name
        | none, p :: _ => pure p.name
        | none, [] => throw .nothingThere
      modify (·.put start [endMark])
      untilStable (g.productions.forM fun p => g.followStep p.name p.symbols) g.rounds

end GdScribe.Grammar
