import GdScribe.Grammar.Basic

/-!
# Shorthand in rules

A rule can hold symbols in braces, which may be repeated, symbols in brackets, which may be left
out, and a choice of symbols with bars between them. Such a part is replaced by a new nonterminal
with productions of its own.

* `Action`: what is done with the values of the symbols of a production.
* `Expansion.rule`: the productions of a rule as it is written.
-/

namespace GdScribe.Grammar

/-- What is done with the values of the symbols of a production. -/
inductive Action where
  | tree
  | whole
  | positions
  | names
  | missing
  | before
  | changeFirst
  | changeLast
  | errorHandled
  | info
  | first
  | noItems
  | oneItem
  | addItem
  | together
  | absent (count : Nat)
  deriving DecidableEq, Repr, Inhabited

/-- A production as it is written. -/
structure Written where
  action : Action
  origin : Origin
  name : String
  symbols : List String
  deriving Repr, Inhabited

/-- Why a rule cannot be expanded. -/
inductive ExpansionFault where
  | loneQuote
  | notClosed
  deriving DecidableEq, Repr, Inhabited

/-- How many nonterminals were made, and the symbols that some of them stand for. -/
structure Expansion where
  count : Nat := 0
  parts : Table (List String) := {}
  deriving Inhabited

abbrev ExpansionM := EStateM ExpansionFault Expansion

namespace Expansion

def hexBytes (s : String) : String :=
  String.join (s.toUTF8.toList.map fun b => Text.hexDigits b.toNat 2)

def namePart (symbol : String) : Except ExpansionFault String :=
  match symbol.toList with
  | ['\''] => .error .loneQuote
  | '\'' :: c :: _ => .ok ("0x" ++ String.ofList (Nat.toDigits 16 c.toNat))
  | _ => .ok (if Text.isIdentifier symbol then symbol else hexBytes symbol)

def newName (symbols : List String) : ExpansionM String := do
  modify fun e => { e with count := e.count + 1 }
  match symbols.mapM namePart with
  | .error f => throw f
  | .ok parts => return "_" ++ toString (← get).count ++ "_" ++ String.intercalate "_" parts

def setParts (name : String) (symbols : List String) : ExpansionM Unit :=
  modify fun e => { e with parts := e.parts.put name symbols }

def ownFile : String := "yacc.py"

def own (line : Int) (action : Action) (name : String) (symbols : List String) : Written :=
  ⟨action, ⟨ownFile, line⟩, name, symbols⟩

/-- How a production is expanded: its name and its symbols, which may hold shorthand. -/
abbrev Expand := Written → ExpansionM (List Written)

def repetition (expand : Expand) (symbols : List String) : ExpansionM (String × List Written) := do
  let base ← newName symbols
  let name := base ++ "_repeat"
  let items := base ++ "_items"
  let item := base ++ "_item"
  setParts name symbols
  let inner ← expand (own 1716 .together item symbols)
  return (name,
    [own 1693 .first name [items], own 1697 .noItems name [],
     own 1703 .addItem items [items, item], own 1709 .oneItem items [item]] ++ inner)

def option (expand : Expand) (symbols : List String) : ExpansionM (String × List Written) := do
  let name := (← newName symbols) ++ "_optional"
  setParts name symbols
  let inner ← expand (own 1749 .together name symbols)
  return (name, inner ++ [own 1753 (.absent symbols.length) name []])

/-- The productions for the symbols of a choice, the last one first. -/
def choices (name : String) : Nat → List String → List Written
  | _, [] => []
  | n, s :: rest => choices name (n + 1) rest ++ [own (1779 + n) .first name (Text.splitBlank s)]

def choice (symbols : List String) : ExpansionM (String × List Written) := do
  let name := (← newName symbols) ++ "_choice"
  return (name, choices name 0 symbols)

def isChoice (symbol : String) : Bool := symbol.toList.contains '|'

def replaceChoices : List String → ExpansionM (List String × List Written)
  | [] => return ([], [])
  | s :: rest => do
    if isChoice s then
      let (name, made) ← choice (Text.split s "|")
      let (rest, more) ← replaceChoices rest
      return (name :: rest, made ++ more)
    else
      let (rest, more) ← replaceChoices rest
      return (s :: rest, more)

/-- The symbols before an opening mark, those up to the closing one, and those after it. -/
def enclosed (opening closing : String) (symbols : List String) :
    ExpansionM (List String × List String × List String) := do
  let before := symbols.takeWhile (· != opening)
  let rest := symbols.drop (before.length + 1)
  let inner := rest.takeWhile (· != closing)
  if inner.length = rest.length then throw .notClosed
  return (before, inner, rest.drop (inner.length + 1))

def replaceRepetition (expand : Expand) (symbols : List String) :
    ExpansionM (List String × List Written) := do
  let (before, inner, after) ← enclosed "\x7b" "\x7d" symbols
  let (inner, made) ← replaceChoices inner
  let (name, more) ← repetition expand inner
  return (before ++ name :: after, made ++ more)

def replaceOption (expand : Expand) (symbols : List String) :
    ExpansionM (List String × List Written) := do
  let (before, inner, after) ← enclosed "[" "]" symbols
  let (name, made) ← option expand inner
  return (before ++ name :: after, made)

/-- Replaces shorthand as long as there are braces or brackets, at most so often. The first mark
decides what is replaced, and a choice counts as one. -/
def replaceAll (expand : Expand) : Nat → List String → ExpansionM (List String × List Written)
  | 0, symbols => return (symbols, [])
  | n + 1, symbols => do
    if symbols.contains "\x7b" || symbols.contains "[" then
      let (symbols, made) ← match symbols.find? fun s => s == "[" || s == "\x7b" || isChoice s with
        | some "[" => replaceOption expand symbols
        | some "\x7b" => replaceRepetition expand symbols
        | _ => replaceChoices symbols
      let (symbols, more) ← replaceAll expand n symbols
      return (symbols, made ++ more)
    else return (symbols, [])

/-- Expands a production; the first argument bounds how deep shorthand is nested. -/
def production : Nat → Expand
  | 0, w => return [w]
  | n + 1, w => do
    let (symbols, made) ← replaceAll (production n) (2 * w.symbols.length + 1) w.symbols
    return { w with symbols := symbols } :: made

/-- The productions of a rule as it is written: the name of its nonterminal can stand before a
colon. -/
def rule (action : Action) (origin : Origin) (name text : String) : ExpansionM (List Written) := do
  let words := Text.splitBlank text
  let written ← production (words.length + 1) ⟨action, origin, name, words⟩
  match written with
  | [] => return []
  | w :: rest =>
    match w.symbols with
    | left :: ":" :: symbols | left :: "::=" :: symbols =>
      return { w with name := left, symbols := symbols } :: rest
    | _ => return written

end Expansion

end GdScribe.Grammar
