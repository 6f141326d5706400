import GdScribe.Table
import GdScribe.Text.Quoted

/-!
# Grammars

A grammar has terminals, and productions that say what nonterminals can stand for. Terminals can
have a precedence, which decides between shifting and reducing.

* `Production`, `Grammar`: productions are numbered from one; number zero leads to the start.
* `setPrecedence`, `addProduction`, `setStart`: how a grammar is built. A step that fails may have
  made new literals known.
* `Grammar.describe`: the grammar as a listing.
-/

namespace GdScribe.Grammar

/-- How operators of one level group. -/
inductive Assoc where
  | left
  | right
  | nonassoc
  deriving DecidableEq, Repr, Inhabited

namespace Assoc

def name : Assoc → String
  | .left => "left"
  | .right => "right"
  | .nonassoc => "nonassoc"

def named? : String → Option Assoc
  | "left" => some .left
  | "right" => some .right
  | "nonassoc" => some .nonassoc
  | _ => none

end Assoc

/-- A level, with how its operators group; level zero stands for no precedence. -/
structure Precedence where
  assoc : Assoc := .right
  level : Int := 0
  deriving DecidableEq, Repr, Inhabited

/-- Where a rule was written. -/
structure Origin where
  file : String := ""
  line : Int := 0
  deriving DecidableEq, Repr, Inhabited

def Origin.describe (o : Origin) : String := o.file ++ ":" ++ toString o.line

/-- What a nonterminal can stand for. -/
structure Production where
  number : Nat
  name : String
  symbols : List String
  precedence : Precedence := {}
  origin : Origin := {}
  deriving DecidableEq, Repr, Inhabited

namespace Production

def describe (p : Production) : String :=
  p.name ++ " -> " ++
    (if p.symbols.isEmpty then "<empty>" else String.intercalate " " p.symbols) ++
    (if p.precedence.level = 0 then ""
      else "  [precedence=" ++ p.precedence.assoc.name ++ ", level=" ++
        toString p.precedence.level ++ "]")

def distinct (p : Production) : List String := p.symbols.eraseDups

end Production

end GdScribe.Grammar

namespace GdScribe

/-- A grammar. A terminal or nonterminal comes with the numbers of the productions it is used in. -/
structure Grammar where
  zeroth : Option Grammar.Production := none
  productions : List Grammar.Production := []
  terminals : Table (List Nat) := {}
  nonterminals : Table (List Nat) := {}
  precedence : Table Grammar.Precedence := {}
  usedPrecedence : List String := []
  first : Table (List String) := {}
  follow : Table (List String) := {}
  deriving Inhabited

end GdScribe

namespace GdScribe.Grammar

/-- Why something cannot be done with a grammar. -/
inductive Fault where
  | tokenAsRule (origin : Origin) (name : String)
  | longLiteral (origin : Origin) (literal rule : String)
  | nothingAfterPrec (origin : Origin)
  | precNotLast (origin : Origin)
  | unknownPrec (origin : Origin) (name : String)
  | duplicate (origin : Origin) (earlier : Production)
  | precedenceTwice (term : String)
  | badAssoc (term : String)
  | unknownStart (name : String)
  | tooLate
  | unknownSymbol (name : String)
  | nothingThere
  | noStart
  | noZeroth
  deriving DecidableEq, Repr, Inhabited

namespace Fault

def message? : Fault → Option String
  | .tokenAsRule o name =>
    some (o.describe ++ ": Illegal rule name " ++ Text.quoted name ++ ". Already defined as a token")
  | .longLiteral o literal rule =>
    some (o.describe ++ ": Literal token " ++ literal ++ " in rule " ++ Text.quoted rule ++
      " may only be a single character")
  | .nothingAfterPrec o => some (o.describe ++ ": Syntax error. Nothing follows %%prec")
  | .precNotLast o =>
    some (o.describe ++ ": Syntax error. %prec can only appear at the end of a grammar rule")
  | .unknownPrec o name =>
    some (o.describe ++ ": Nothing known about the precedence of " ++ Text.quoted name)
  | .duplicate o earlier =>
    some (o.describe ++ ": Duplicate rule " ++ earlier.describe ++ ". Previous definition at " ++
      earlier.origin.describe)
  | .precedenceTwice term =>
    some ("Precedence already specified for terminal " ++ Text.quoted term)
  | .badAssoc term =>
    some ("Associativity of " ++ Text.quoted term ++ " must be one of 'left','right', or 'nonassoc'")
  | .unknownStart name => some ("start symbol " ++ name ++ " undefined")
  | .tooLate => some "Must call set_precedence() before add_production()"
  | .unknownSymbol name => some (Text.quoted name)
  | .nothingThere | .noStart | .noZeroth => none

/-- Whether a fault is in the grammar as it was written, and not in the order of the steps on it. -/
def isWritten : Fault → Bool
  | .tooLate | .unknownSymbol _ | .nothingThere | .noStart | .noZeroth => false
  | _ => true

end Fault

abbrev GrammarM := EStateM Fault Grammar

def endMark : String := "$end"

def errorMark : String := "error"

def startName : String := "S'"

def ofTerminals (terminals : List String) : Grammar :=
  { terminals := (terminals.foldl (fun t s => t.put s []) Table.empty).put errorMark [] }

def allProductions (g : Grammar) : List (Option Production) :=
  g.zeroth :: g.productions.map some

def productionsOf (g : Grammar) (name : String) : List Production :=
  g.productions.filter (·.name == name)

def isDefined (g : Grammar) (name : String) : Bool := g.productions.any (·.name == name)

def setPrecedence (term assoc : String) (level : Int) : GrammarM Unit := do
  let g ← get
  if g.zeroth.isSome || !g.productions.isEmpty then throw .tooLate
  if g.precedence.contains term then throw (.precedenceTwice term)
  match Assoc.named? assoc with
  | none => throw (.badAssoc term)
  | some a => set { g with precedence := g.precedence.put term ⟨a, level⟩ }

/-- Reads a symbol of a rule: a quoted character becomes a terminal. -/
def readSymbol (origin : Origin) (rule symbol : String) : GrammarM String := do
  match symbol.toList with
  | [] => throw .nothingThere
  | q :: rest =>
    if (q = '\'' ∨ q = '"') ∧ (q :: rest).getLast? = some q then
      match rest.dropLast with
      | [c] =>
        let literal := String.singleton c
        modify fun g =>
          if g.terminals.contains literal then g
          else { g with terminals := g.terminals.put literal [] }
        return literal
      | _ => throw (.longLiteral origin symbol rule)
    else return symbol

/-- The symbols and the precedence of a rule: that of the name after `%prec`, or of the last
terminal. -/
def readPrecedence (origin : Origin) (symbols : List String) :
    GrammarM (List String × Precedence) := do
  let g ← get
  if symbols.contains "%prec" then
    match symbols.reverse with
    | "%prec" :: _ => throw (.nothingAfterPrec origin)
    | name :: "%prec" :: rest =>
      match g.precedence.find? name with
      | none => throw (.unknownPrec origin name)
      | some p =>
        set { g with usedPrecedence := name :: g.usedPrecedence }
        return (rest.reverse, p)
    | _ => throw (.precNotLast origin)
  else
    match symbols.reverse.find? g.terminals.contains with
    | some t => return (symbols, (g.precedence.find? t).getD {})
    | none => return (symbols, {})

def useSymbol (number : Nat) (g : Grammar) (symbol : String) : Grammar :=
  match g.terminals.find? symbol with
  | some uses => { g with terminals := g.terminals.put symbol (uses ++ [number]) }
  | none =>
    let uses := (g.nonterminals.find? symbol).getD []
    { g with nonterminals := g.nonterminals.put symbol (uses ++ [number]) }

def addProduction (name : String) (symbols : List String) (origin : Origin) : GrammarM Unit := do
  if (← get).terminals.contains name then throw (.tokenAsRule origin name)
  let symbols ← symbols.mapM (readSymbol origin name)
  let (symbols, precedence) ← readPrecedence origin symbols
  let g ← get
  match g.productions.find? fun p => p.name == name && p.symbols == symbols with
  | some earlier => throw (.duplicate origin earlier)
  | none =>
    let number := g.productions.length + 1
    let g := if g.nonterminals.contains name then g
      else { g with nonterminals := g.nonterminals.put name [] }
    let g := symbols.foldl (useSymbol number) g
    let p : Production := ⟨number, name, symbols, precedence, origin⟩
    set { g with productions := g.productions ++ [p] }

/-- Chooses the start: a given nonterminal, or that of the first production. -/
def setStart (start : Option String) : GrammarM Unit := do
  let g ← get
  let name ← match start.filter (!·.isEmpty), g.productions with
    | some name, _ => pure name
    | none, p :: _ => pure p.name
    | none, [] => throw .nothingThere
  match g.nonterminals.find? name with
  | none => throw (.unknownStart name)
  | some uses =>
    set { g with
      zeroth := some { number := 0, name := startName, symbols := [name] }
      nonterminals := g.nonterminals.put name (uses ++ [0]) }

def unusedTerminals (g : Grammar) : List String :=
  (g.terminals.entries.filter fun e => e.1 != errorMark && e.2.isEmpty).map (·.1)

def padded (s : String) (width : Nat) : String := s ++ Text.times " " (width - s.length)

def usesLine (e : String × List Nat) : String :=
  padded e.1 20 ++ " : " ++ String.intercalate " " (e.2.map toString)

def usesLines (t : Table (List Nat)) : List String :=
  (Text.distinctSorted t.keys).map fun k => usesLine (k, (t.find? k).getD [])

def productionLines : Nat → List (Option Production) → List String
  | _, [] => []
  | n, p :: ps =>
    ("Rule " ++ padded (toString n) 5 ++ " " ++ p.elim "None" (·.describe)) ::
      productionLines (n + 1) ps

def describe (g : Grammar) : String :=
  let unused := g.unusedTerminals
  String.intercalate "\n" (["Grammar:\n"] ++ productionLines 0 g.allProductions ++
    (if unused.isEmpty then [] else "\nUnused terminals:\n" :: unused.map ("    " ++ ·)) ++
    ["\nTerminals, with rules where they appear:\n"] ++ usesLines g.terminals ++
    ["\nNonterminals, with rules where they appear:\n"] ++ usesLines g.nonterminals ++ [""])

end GdScribe.Grammar
