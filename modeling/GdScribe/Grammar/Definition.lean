import GdScribe.Grammar.ParseTable
import GdScribe.Grammar.Shorthand
import GdScribe.Grammar.Value

/-!
# Parsers from rules

A parser is defined by tokens, precedence and rules. Rules of one name belong together; the last
one that was written comes first.

* `Definition`: what is written to define a parser.
* `Rule`: a production with its action, and the names by which its values can be asked for.
* `Definition.build`: builds the parser, and logs what looks wrong on the way.
-/

namespace GdScribe.Grammar

/-- Rules that are written together; without texts it is no rule at all. -/
structure RuleGroup where
  name : String
  texts : List String
  line : Nat := 1
  action : Action := .tree
  deriving Inhabited

/-- What is written to define a parser. -/
structure Definition where
  tokens : Option (List String) := none
  precedence : Option Value := none
  rules : List RuleGroup := []
  start : Option String := none
  /-- The rules that stand for the start, and are read once more at the end. -/
  startRules : Option String := none
  expectedShift : Option Int := none
  expectedReduce : Option Int := none
  trackPositions : Bool := true
  listingFile : Bool := false
  deriving Inhabited

/-- Where a value is found: at a symbol, or as a part of the value of a symbol. -/
structure Access where
  symbol : Nat
  part : Option Nat := none
  deriving DecidableEq, Repr, Inhabited

/-- A production with its action and the names of its values. -/
structure Rule where
  production : Production
  action : Action
  names : Table Access
  deriving Inhabited

/-- A parser that is ready to be used. -/
structure Parser where
  grammar : Grammar
  automaton : Automaton
  table : ParseTable
  rules : Array Rule
  trackPositions : Bool := true
  deriving Inhabited

/-- Why a parser cannot be built. -/
inductive BuildFault where
  | invalid
  | noRules
  | errors (lines : List String)
  | redefined (name : String)
  | expansion (f : ExpansionFault)
  | grammar (f : Fault)
  | onlyRefused
  | openGap
  deriving Inhabited

namespace BuildFault

/-- The text that is reported with a fault of the definition; other faults have none. -/
def message? : BuildFault → Option String
  | .invalid => some "Invalid parser specification"
  | .noRules => some "No grammar rules are defined"
  | .errors lines =>
    some ("Unable to build grammar.\n" ++ String.join (lines.map (· ++ "\n")))
  | .redefined name =>
    some ("Redefinition of " ++ name ++ ". Perhaps an earlier " ++ name ++ " is missing @_")
  | .expansion _ | .grammar _ | .onlyRefused | .openGap => none

end BuildFault

/-- The log and the errors of a construction. -/
structure Notes where
  log : List String := []
  errors : List String := []
  deriving Inhabited

abbrev BuildM := EStateM BuildFault Notes

namespace Definition

def logLine (line : String) : BuildM Unit := modify fun n => { n with log := n.log ++ [line] }

def warn (text : String) : BuildM Unit := logLine ("WARNING: " ++ text)

/-- A text whose gaps have been filled: a percent sign marks a gap, and two of them stand for
one. -/
def filled : List Char → BuildM (List Char)
  | [] => return []
  | '%' :: '%' :: rest => return '%' :: (← filled rest)
  | '%' :: _ => throw .openGap
  | c :: rest => return c :: (← filled rest)

def reject {α : Type} (text : String) : BuildM α := do
  logLine ("ERROR: " ++ String.ofList (← filled text.toList))
  throw .invalid

def addError (text : String) : BuildM Unit :=
  modify fun n => { n with errors := n.errors ++ [text] }

/-- The rules by name, the last ones first; `none` for a name that is no rule. -/
def groups (rules : List RuleGroup) : Except BuildFault (Table (Option (List RuleGroup))) :=
  rules.foldlM (fun t r =>
    if r.texts.isEmpty then .ok (t.put r.name none)
    else match t.find? r.name with
      | none => .ok (t.put r.name (some [r]))
      | some none => .error (.redefined r.name)
      | some (some chain) => .ok (t.put r.name (some (r :: chain)))) {}

def checkTokens (d : Definition) : BuildM (List String) := do
  match d.tokens with
  | none => reject "No token list is defined"
  | some [] => reject "tokens is empty"
  | some tokens =>
    if tokens.contains Grammar.errorMark then
      reject "Illegal token name 'error'. Is a reserved word"
    else return tokens

def asText? : Value → Option String
  | .text s => some s
  | _ => none

def readLevel (v : Value) : BuildM (String × List String) := do
  match v with
  | .list items | .tuple items =>
    if items.length < 2 then
      reject ("Malformed precedence entry " ++ v.describe ++ ". Must be (assoc, term, ..., term)")
    else match items.mapM asText? with
      | some (assoc :: terms) => return (assoc, terms)
      | _ => reject "precedence items must be strings"
  | _ =>
    reject ("Bad precedence table entry " ++ v.describe ++ ". Must be a list or tuple")

def checkPrecedence (d : Definition) : BuildM (List (String × List String)) := do
  match d.precedence with
  | none => return []
  | some (.list levels) | some (.tuple levels) => levels.mapM readLevel
  | some _ => reject "precedence must be a list or tuple"

def onGrammar (g : Grammar) (act : GrammarM Unit) : BuildM (Grammar × Bool) := do
  match act g with
  | .ok () g => return (g, true)
  | .error f g =>
    if f.isWritten then
      addError (f.message?.getD "")
      return (g, false)
    else throw (.grammar f)

/-- Sets the precedence of the terminals of levels, the first of which has number `n`. -/
def setLevels : Int → List (String × List String) → Grammar → BuildM Grammar
  | _, [], g => return g
  | n, (assoc, terms) :: rest, g => do
    let g ← terms.foldlM (fun g t => do
      return (← onGrammar g (Grammar.setPrecedence t assoc n)).1) g
    setLevels (n + 1) rest g

/-- The name of the `k`th symbol that would be called `name`, if there are several. -/
def numbered (count : String → Nat) (used : Table Nat) (name : String) : String × Table Nat :=
  if 1 < count name then
    let n := (used.find? name).getD 0
    (name ++ toString n, used.put name (n + 1))
  else (name, used)

/-- Names symbols in order; `parts` are the symbols that a symbol stands for. -/
def nameSymbols (count : String → Nat) (parts : Table (List String)) :
    Nat → List String → Table Nat → Table Access → Table Access
  | _, [], _, names => names
  | i, s :: rest, used, names =>
    let (name, used) := numbered count used s
    let names := names.put name ⟨i, none⟩
    let (used, names, _) := ((parts.find? s).getD []).foldl (fun (used, names, n) p =>
      let (name, used) := numbered count used p
      (used, names.put name ⟨i, some n⟩, n + 1)) (used, names, 0)
    nameSymbols count parts (i + 1) rest used names

/-- The names by which the values of a production can be asked for: the symbols, with a number if
there are several of one name. -/
def namesOf (parts : Table (List String)) (symbols : List String) : Table Access :=
  let all := symbols.flatMap fun s => s :: (parts.find? s).getD []
  nameSymbols all.count parts 0 symbols {} {}

/-- The state of reading rules. -/
structure Reading where
  grammar : Grammar
  expansion : Expansion := {}
  rules : List (Action × Table Access) := []

def addWritten (r : Reading) (w : Written) : BuildM Reading := do
  let (g, added) ← onGrammar r.grammar (Grammar.addProduction w.name w.symbols w.origin)
  match added, g.productions.getLast? with
  | true, some p =>
    let rule := (w.action, namesOf r.expansion.parts p.symbols)
    return { r with grammar := g, rules := r.rules ++ [rule] }
  | _, _ => return { r with grammar := g }

def numberedTexts (g : RuleGroup) : List (String × Int) :=
  let lines := (List.range g.texts.length).map fun i => Int.ofNat (g.line + i)
  ((g.texts.zip lines).reverse).takeWhile fun e => 0 < e.2

def expandGroup (r : RuleGroup) : ExpansionM (List Written) := do
  let found ← (numberedTexts r).mapM fun (text, line) =>
    Expansion.rule r.action ⟨"g", line⟩ r.name text
  return found.flatten

def readGroups (r : Reading) (groups : List RuleGroup) : BuildM Reading := do
  match (groups.mapM expandGroup) r.expansion with
  | .error f _ => throw (.expansion f)
  | .ok written e => written.flatten.foldlM addWritten { r with expansion := e }

def warnCount (n : Nat) (one many : String) : BuildM Unit := do
  if n = 1 then warn one
  if 1 < n then warn many

def inspect (g : Grammar) : BuildM Unit := do
  let undefined := g.undefinedSymbols
  undefined.forM fun (s, p) =>
    addError (p.origin.describe ++ ": Symbol " ++ Text.quoted s ++
      " used, but not defined as a token or a rule")
  let tokens := g.unusedTerminals
  if !tokens.isEmpty then
    let names ← filled ("\x7b" ++ String.intercalate "," tokens ++ "\x7d").toList
    warn ("Token" ++ (if 1 < tokens.length then "(s)" else "") ++ " " ++ String.ofList names ++
      " defined, but not used")
  let rules := g.unusedRules
  rules.forM fun p =>
    warn (p.origin.describe ++ ": Rule " ++ Text.quoted p.name ++ " defined, but not used")
  warnCount tokens.length "There is 1 unused token"
    ("There are " ++ toString tokens.length ++ " unused tokens")
  warnCount rules.length "There is 1 unused rule"
    ("There are " ++ toString rules.length ++ " unused rules")
  match g.unreachable with
  | .error f => throw (.grammar f)
  | .ok names => names.forM fun n => warn ("Symbol " ++ Text.quoted n ++ " is unreachable")
  if undefined.isEmpty then
    g.endless.forM fun n => addError ("Infinite recursion detected for symbol " ++ Text.quoted n)
  g.unusedPrecedence.forM fun (term, assoc) =>
    addError ("Precedence rule " ++ Text.quoted assoc.name ++ " defined for unknown symbol " ++
      Text.quoted term)

/-- Builds the grammar of a definition. Where nothing else is said, rules of the name `start` are
the start. -/
def buildGrammar (d : Definition) (groups : Table (Option (List RuleGroup))) : BuildM Reading := do
  let tokens ← d.checkTokens
  let levels ← d.checkPrecedence
  let again := (d.startRules.bind fun n => (groups.find? n).bind id).toList
  let chains := groups.values.filterMap id ++ again
  if chains.isEmpty then throw .noRules
  let g ← setLevels 1 levels (Grammar.ofTerminals tokens)
  let r ← chains.foldlM readGroups { grammar := g }
  let start := (d.startRules.or d.start).or ((groups.find? "start").map fun _ => "start")
  let (g, _) ← onGrammar r.grammar (Grammar.setStart start)
  inspect g
  let errors := (← get).errors
  if !errors.isEmpty then throw (.errors errors)
  return { r with grammar := g }

def warnConflicts (n : Nat) (expected : Option Int) (kind : String) : BuildM Unit := do
  if expected ≠ some (n : Int) then
    warnCount n ("1 " ++ kind ++ " conflict") (toString n ++ " " ++ kind ++ " conflicts")

def computeSets (g : Grammar) : BuildM Grammar := do
  match (do Grammar.computeFirst; Grammar.computeFollow none : GrammarM Unit) g with
  | .ok () g => return g
  | .error f _ => throw (.grammar f)

def buildParser (d : Definition) : BuildM Parser := do
  let groups ← match groups d.rules with
    | .ok groups => pure groups
    | .error f => throw f
  let r ← d.buildGrammar groups
  let g ← computeSets r.grammar
  let some (a, table) := ParseTable.ofGrammar? g | throw (.grammar .noZeroth)
  if table.onlyRefuses then throw .onlyRefused
  warnConflicts table.shiftConflicts.length d.expectedShift "shift/reduce"
  warnConflicts table.reduceConflicts.length d.expectedReduce "reduce/reduce"
  if d.listingFile then logLine "Parser debugging for G written to parser.out"
  let rules := (g.productions.zip r.rules).map fun (p, action, names) => ⟨p, action, names⟩
  return { grammar := g, automaton := a, table := table, rules := rules.toArray,
           trackPositions := d.trackPositions }

def build (d : Definition) : List String × Except BuildFault Parser :=
  match d.buildParser {} with
  | .ok p n => (n.log, .ok p)
  | .error f n => (n.log, .error f)

end Definition

namespace Parser

def grammarListing (p : Parser) : String := p.grammar.describe

def tableListing (p : Parser) : String := p.table.describe p.automaton

def listing (p : Parser) : String := p.grammarListing ++ "\n" ++ p.tableListing

end Parser

end GdScribe.Grammar
