import GdScribe.Script.ClassBody

/-!
# Running a target over a script

The rules of expressions and blocks are tied together, and a script is read from its first token
to its end.

* `rules`: the rules, which call each other at most so deep.
* `run`: reads a script for a target.
-/

namespace GdScribe

namespace Read

variable {σ : Type} (w : Writer σ)

def rules : Nat → Rules σ
  | 0 =>
    { expression := throw .endless, ternary := throw .endless, boolean := throw .endless,
      sum := throw .endless, reference := fun _ _ => throw .endless,
      follow := fun _ => throw .endless, block := throw .endless }
  | n + 1 =>
    { expression := fun s => expression w (rules n) s
      ternary := fun s => ternary w (rules n) s
      boolean := fun s => boolean w (rules n) s
      sum := fun s => sum w (rules n) s
      reference := fun t b s => reference w (rules n) t b s
      follow := fun t s => follow w (rules n) t s
      block := fun s => block w (rules n) s }

/-- How deep the rules can be nested in a script of `n` tokens: each level takes a token. -/
def depth (n : Nat) : Nat := n + 8

end Read

/-- What a run over a script leaves: the fault that ended it, if any, the reader's state, or only
the desk if there was no token to start with. -/
structure Outcome (σ : Type) where
  fault : Option Fault
  token : Option Token
  classes : List String
  desk : Desk σ
  passed : List Token := []
  /-- The string literals that were read as values, the last one first. -/
  strings : List Token := []
  asked : List Request := []
  history : List Note := []

def Outcome.ofResult {σ : Type} : EStateM.Result Fault (Reader σ) Unit → Outcome σ
  | .ok () s => ⟨none, some s.current, s.classes, s.desk, s.passed, s.strings, s.asked, s.history⟩
  | .error e s => ⟨some e, some s.current, s.classes, s.desk, s.passed, s.strings, s.asked, s.history⟩

def run {σ : Type} (w : Writer σ) (scriptName text : String) (desk : Desk σ) : Outcome σ :=
  let scanned := scan (text ++ "\n")
  match scanned.lexemes with
  | [] => { fault := some .noToken, token := none, classes := [],
            desk := desk.print scanned.closing }
  | first :: rest =>
    .ofResult <| Read.script w (Read.rules w (Read.depth scanned.lexemes.length)) scriptName
      { current := first.token, ahead := rest, closing := scanned.closing,
        desk := desk.print first.notices }

end GdScribe
