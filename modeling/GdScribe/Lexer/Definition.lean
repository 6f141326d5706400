import GdScribe.Pattern.Match
import GdScribe.Pattern.Notation
import GdScribe.Table
import GdScribe.Text.Quoted

/-!
# Lexers

A lexer is defined by rules in order. It can extend another lexer: it keeps the rules of that
lexer in their places and may replace, add or remove some.

* `Item`, `Definition`: what is written to define a lexer.
* `Lexer`: a lexer that is ready to be used.
* `Collection.add`: builds a lexer. All names for special values of a token are shared between a
  lexer and those that extend it.
-/

namespace GdScribe.Lexer

/-- What is done with a token when its rule has matched. -/
inductive Action where
  | keep
  | upper
  | drop
  | countLines
  | pop
  | mark
  | accept
  | reject
  | push (lexer : Nat)
  | switch (lexer : Nat)
  deriving DecidableEq, Repr, Inhabited

/-- What is done with a character that no rule matches. -/
inductive Recovery where
  | skip
  | token
  deriving DecidableEq, Repr, Inhabited

/-- One line of a definition. -/
inductive Item where
  | rule (name pattern : String)
  | before (name other pattern : String)
  | remap (name value new : String)
  | unmap (name value : String)
  | delete (name : String)
  | action (name : String) (patterns : Option (List String)) (act : Action)
  deriving DecidableEq, Repr, Inhabited

/-- What is written to define a lexer. A part that cannot be used as it is written is `none`. -/
structure Definition where
  base : Option Nat := none
  ignore : Option (Option String) := none
  literals : Option (List (Option String)) := none
  tokens : Option (List String) := none
  items : List Item := []
  recovery : Option Recovery := none
  deriving Inhabited

/-- Why a lexer cannot be built. -/
inductive Fault where
  | redefined (name : String)
  | noTokens
  | missingToken (names : List String)
  | noPattern (name : String)
  | notAToken (name : String)
  | badPattern (name : String)
  | emptyPattern (name : String)
  | badIgnore
  | badLiterals
  | unknownName (name : String)
  | notAPattern (name : String)
  | clash (f : Pattern.Fault)
  deriving DecidableEq, Repr, Inhabited

namespace Fault

def message? : Fault → Option String
  | .redefined name => some ("Name " ++ name ++ " redefined")
  | .noTokens => some "L class does not define a tokens attribute"
  | .missingToken names => some (String.intercalate ", " names ++ " not included in token(s)")
  | .noPattern _ | .notAPattern _ | .clash _ => none
  | .notAToken name => some (name ++ " does not match a name in tokens")
  | .badPattern name => some ("Invalid regex for token " ++ name)
  | .emptyPattern name => some ("Regex for token " ++ name ++ " matches empty input")
  | .badIgnore => some "ignore specifier must be a string"
  | .badLiterals => some "literals must be specified as strings"
  | .unknownName name => some (Text.quoted name)

end Fault

/-- What a name of a definition stands for: a written pattern, or an action with the pattern that
was written for it. -/
inductive Meaning where
  | pattern (text : String)
  | action (pattern : Option String) (act : Action)
  deriving DecidableEq, Repr, Inhabited

namespace Meaning

def pattern? : Meaning → Option String
  | .pattern text => some text
  | .action text _ => text

def hasPattern (m : Meaning) : Bool := m.pattern?.isSome

end Meaning

def oneOf (patterns : List String) : String :=
  String.intercalate "|" (patterns.map fun p => "(" ++ p ++ ")")

end GdScribe.Lexer

namespace GdScribe

/-- A lexer that is ready to be used. -/
structure Lexer where
  tokenNames : List String := []
  ignored : List String := []
  actions : Table Lexer.Action := {}
  remaps : Table Nat := {}
  rules : List (String × Lexer.Meaning) := []
  /-- The pattern of all the rules, in which the kinds are names of groups, if there are any. -/
  matcher : Option Pattern.Matcher := none
  ignore : String := ""
  literals : List String := []
  recovery : Option Lexer.Recovery := none
  deriving Inhabited

end GdScribe

namespace GdScribe.Lexer

/-- Lexers that may refer to each other, with the names for special values. -/
structure Collection where
  lexers : Array Lexer := #[]
  remaps : Array (Table String) := #[]
  deriving Inhabited

/-- The names of a definition while it is read. -/
structure Scope where
  meanings : Table Meaning := {}
  before : Table String := {}
  remaps : List ((String × String) × String) := []
  deleted : List String := []
  deriving Inhabited

namespace Scope

def isFree (name : String) : Bool :=
  Text.isUpper ((Text.split name "ignore_").getLast?.getD "") && !Text.startsWith name "_"

def setPattern (s : Scope) (name pattern : String) : Except Fault Scope :=
  match s.meanings.find? name with
  | some (.pattern _) => .error (.redefined name)
  | _ => .ok { s with meanings := s.meanings.put name (.pattern pattern) }

def setRemap (s : Scope) (name value new : String) : Except Fault Scope :=
  match s.meanings.find? name with
  | some (.action _ _) => .error (.notAPattern name)
  | some (.pattern _) => .ok (put s)
  | none => if isFree name then .ok (put s) else .error (.unknownName name)
where
  put (s : Scope) : Scope :=
    if s.remaps.any (·.1 == (name, value)) then
      { s with remaps := s.remaps.map fun e => if e.1 == (name, value) then (e.1, new) else e }
    else { s with remaps := s.remaps ++ [((name, value), new)] }

def read (s : Scope) : Item → Except Fault Scope
  | .rule name pattern => s.setPattern name pattern
  | .before name other pattern =>
    { s with before := s.before.put name other }.setPattern name pattern
  | .remap name value new => s.setRemap name value new
  | .unmap name value => s.setRemap name value name
  | .delete name =>
    let s := { s with deleted := name :: s.deleted }
    if s.meanings.contains name then .ok { s with meanings := s.meanings.erase name }
    else if Text.isUpper name then .ok s
    else .error (.unknownName name)
  | .action name patterns act =>
    let pattern := match s.meanings.find? name with
      | some (.pattern text) => some text
      | _ => patterns.map oneOf
    .ok { s with meanings := s.meanings.put name (.action pattern act) }

end Scope

def insertBefore (other : String) (rule : String × Meaning) :
    List (String × Meaning) → List (String × Meaning)
  | [] => [rule]
  | r :: rest => if r.1 = other then rule :: r :: rest else r :: insertBefore other rule rest

def addRule (tokenNames : List String) (before : Table String)
    (rules : List (String × Meaning)) (name : String) (m : Meaning) :
    Except Fault (List (String × Meaning)) :=
  let isAction := match m with
    | .action _ _ => true
    | .pattern _ => false
  if tokenNames.contains name || Text.startsWith name "ignore_" || isAction && m.hasPattern then
    if !m.hasPattern then .error (.noPattern name)
    else if rules.any (·.1 == name) then
      .ok (rules.map fun r => if r.1 == name then (name, m) else r)
    else match isAction, before.find? name with
      | false, some other => .ok (insertBefore other (name, m) rules)
      | _, _ => .ok (rules ++ [(name, m)])
  else if !isAction && !Text.startsWith name "_" then .error (.notAToken name)
  else .ok rules

def kindOf (name : String) : String × Bool :=
  if Text.startsWith name "ignore_" then (Text.dropStart name "ignore_".length, true)
  else (name, false)

/-- The lexer with what a rule says of its kind, and the pattern of the rule as a group with the
kind as its name, put in front of `done`. A pattern must not be found in an empty text. -/
def compileRule (acc : Lexer × List String) (rule : String × Meaning) :
    Except Fault (Lexer × List String) :=
  let (l, done) := acc
  let (kind, passedOver) := kindOf rule.1
  let l := if passedOver && !l.ignored.contains kind then { l with ignored := kind :: l.ignored }
    else l
  let l := match rule.2 with
    | .action _ act => { l with actions := l.actions.put kind act }
    | .pattern _ => l
  let named := "(?P<" ++ kind ++ ">" ++ rule.2.pattern?.getD "" ++ ")"
  match Pattern.Matcher.ofText named with
  | .ok m =>
    if (m.pattern.matchAt? #[] 0 true).isSome then .error (.emptyPattern kind)
    else .ok (l, named :: done)
  | .error _ => .error (.badPattern kind)

def matcherOf (patterns : List String) : Except Fault Pattern.Matcher :=
  match Pattern.Matcher.ofText (String.intercalate "|" patterns) with
  | .ok m => .ok m
  | .error f => .error (.clash f)

namespace Collection

def putRemap (acc : Collection × Table Nat) (entry : (String × String) × String) :
    Collection × Table Nat :=
  let (c, remaps) := acc
  let ((kind, value), new) := entry
  match remaps.find? kind with
  | some i => ({ c with remaps := c.remaps.modify i (·.put value new) }, remaps)
  | none =>
    ({ c with remaps := c.remaps.push (Table.empty.put value new) }, remaps.put kind c.remaps.size)

def newNames (c : Collection) (remaps : Table Nat) : List String :=
  remaps.values.flatMap fun i => ((c.remaps[i]?).getD {}).values

def checkCharacters (d : Definition) : Except Fault Unit := do
  if d.ignore = some none then throw .badIgnore
  if (d.literals.getD []).contains none then throw .badLiterals

def add (c : Collection) (d : Definition) : Except Fault Collection := do
  let scope ← d.items.foldlM Scope.read {}
  let base := (d.base.bind fun i => c.lexers[i]?).getD {}
  let some tokens := d.tokens | throw .noTokens
  let names := base.tokenNames ++ tokens
  let (c, remaps) := scope.remaps.foldl putRemap (c, base.remaps)
  let undefined := ((c.newNames remaps).filter (!names.contains ·)).eraseDups
  if !undefined.isEmpty then throw (.missingToken undefined)
  let rules ← scope.meanings.entries.foldlM
    (fun rules e => addRule names scope.before rules e.1 e.2) base.rules
  let rules := rules.filter (!scope.deleted.contains ·.1)
  let l := { base with
    tokenNames := names
    remaps := remaps
    rules := rules
    ignore := (d.ignore.bind id).getD base.ignore
    literals := (d.literals.map (·.filterMap id)).getD base.literals
    recovery := d.recovery.or base.recovery }
  let (l, patterns) ← rules.foldlM compileRule (l, [])
  if patterns.isEmpty then return { c with lexers := c.lexers.push l }
  let m ← matcherOf patterns.reverse
  checkCharacters d
  return { c with lexers := c.lexers.push { l with matcher := some m } }

def ofDefinitions (ds : List Definition) : Except Fault Collection := ds.foldlM add {}

end Collection

end GdScribe.Lexer
