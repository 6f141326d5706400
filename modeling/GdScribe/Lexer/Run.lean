import GdScribe.Lexer.Definition

/-!
# Cutting a text into tokens

A lexer goes through a text: it passes over characters between tokens, looks for the patterns of
its rules in order, and does what the rule of a token says, which may be to go on with another lexer.

* `Token`: a token with its place in the text.
* `Result`: the tokens, and where and why the lexer stopped.
* `Collection.run`: cuts a text into tokens.
-/

namespace GdScribe.Lexer

/-- A token with its line and the span of the text it was read from. -/
structure Token where
  kind : String
  value : String
  line : Nat
  start : Nat
  stop : Nat
  deriving DecidableEq, Repr, Inhabited

/-- Why a lexer stops before the end. -/
inductive Stop where
  | illegal (rest : List Char) (index : Nat)
  | neverPushed
  | nothingLeft
  | noRules
  deriving DecidableEq, Repr, Inhabited

namespace Stop

def message? : Stop → Option String
  | .illegal (c :: _) i =>
    some ("Illegal character " ++ Text.quoted (String.singleton c) ++ " at index " ++ toString i)
  | _ => none

end Stop

structure Modes where
  active : Nat
  /-- The lexer that was switched to last, which recovers and is remembered. -/
  current : Nat
  remembered : Option (List Nat) := none
  marks : List Nat := []
  deriving DecidableEq, Repr, Inhabited

structure Result where
  tokens : List Token := []
  errors : List (Char × Nat × Nat) := []
  line : Nat
  index : Nat
  stop : Option Stop := none
  deriving Inhabited

namespace Result

def addToken (r : Result) (t : Token) : Result := { r with tokens := t :: r.tokens }

def inOrder (r : Result) : Result :=
  { r with tokens := r.tokens.reverse, errors := r.errors.reverse }

end Result

namespace Collection

def lexer (c : Collection) (i : Nat) : Lexer := (c.lexers[i]?).getD {}

/-- The first rule whose pattern is found at a position, with the length of the piece. The group
that ends last is that of the rule. -/
def firstMatch? (l : Lexer) (text : Array Char) (pos : Nat) : Option (String × Nat) := do
  let m ← l.matcher
  let piece ← m.pattern.matchAt? text pos true
  let last ← piece.notes.head?
  let (kind, _) ← m.names.find? (·.2 == last.number)
  return (kind, piece.stop - piece.start)

def remapped (c : Collection) (l : Lexer) (kind value : String) : String :=
  match l.remaps.find? kind with
  | some i => (((c.remaps[i]?).getD {}).find? value).getD kind
  | none => kind

def switch (c : Collection) (m : Modes) (i : Nat) : Except Stop Modes :=
  if (c.lexer i).matcher.isNone then .error .noRules
  else .ok { m with active := i, current := i }

/-- Does what the rule of a token says: the new modes, the line, and the token unless it is
dropped. -/
def perform (c : Collection) (m : Modes) (t : Token) :
    Action → Except Stop (Modes × Nat × Option Token)
  | .keep => .ok (m, t.line, some t)
  | .upper => .ok (m, t.line, some { t with value := Text.upper t.value })
  | .drop => .ok (m, t.line, none)
  | .countLines => .ok (m, t.line + t.value.toList.count '\n', none)
  | .mark => .ok ({ m with marks := m.current :: m.marks }, t.line, some t)
  | .accept => match m.marks with
    | [] => .error .nothingLeft
    | _ :: rest => .ok ({ m with marks := rest }, t.line, some t)
  | .reject => match m.marks with
    | [] => .error .nothingLeft
    | i :: _ => .ok ({ m with active := i }, t.line, some t)
  | .push i => do
    let m ← c.switch { m with remembered := some (m.current :: m.remembered.getD []) } i
    return (m, t.line, some t)
  | .switch i => do return (← c.switch m i, t.line, some t)
  | .pop => match m.remembered with
    | none => .error .neverPushed
    | some [] => .error .nothingLeft
    | some (i :: rest) => do
      return (← c.switch { m with remembered := some rest } i, t.line, some t)

/-- Cuts the rest of a text into tokens. Every step takes at least one character. -/
def go (c : Collection) (text : Array Char) (m : Modes) (r : Result) : List Char → Result
  | [] => r
  | ch :: rest =>
    let l := c.lexer m.active
    if l.ignore.toList.contains ch then
      c.go text m { r with index := r.index + 1 } rest
    else match firstMatch? l text r.index with
      | some (name, n) =>
        let value := String.ofList ((ch :: rest).take n)
        let stop := r.index + n
        let kind := c.remapped l name value
        let token : Token := ⟨kind, value, r.line, r.index, stop⟩
        match c.perform m token ((l.actions.find? kind).getD .keep) with
        | .error e => { r with index := stop, stop := some e }
        | .ok (m, line, result) =>
          let r := { r with index := stop, line := line }
          let r := match result with
            | some t => if (c.lexer m.active).ignored.contains kind then r else r.addToken t
            | none => r
          c.go text m r (rest.drop (n - 1))
      | none =>
        if l.literals.contains (String.singleton ch) then
          let value := String.singleton ch
          let token : Token := ⟨value, value, r.line, r.index, r.index + 1⟩
          c.go text m { r.addToken token with index := r.index + 1 } rest
        else match (c.lexer m.current).recovery with
          | none => { r with stop := some (.illegal (ch :: rest) r.index) }
          | some recovery =>
            let noted := { r with errors := (ch, r.line, r.index) :: r.errors,
                                  index := r.index + 1 }
            let token : Token :=
              ⟨"ERROR", String.ofList (ch :: rest), r.line, r.index, r.index + 1⟩
            c.go text m (if recovery = .token then noted.addToken token else noted) rest
termination_by cs => cs.length
decreasing_by
  all_goals simp only [List.length_cons, List.length_drop]
  all_goals omega

/-- Cuts a text into tokens with a lexer, from a line and a position on; there is no result if the
lexer has no rules. -/
def run (c : Collection) (i : Nat) (text : String) (line index : Nat) : Except Stop Result :=
  if (c.lexer i).matcher.isNone then .error .noRules
  else
    let chars := text.toList
    let r := c.go chars.toArray ⟨i, i, none, []⟩ { line := line, index := index } (chars.drop index)
    .ok r.inOrder

end Collection

end GdScribe.Lexer
