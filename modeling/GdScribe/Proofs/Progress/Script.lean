import GdScribe.Proofs.Progress.Rules

/-!
# Where a script can go on for ever

The reading of a script comes back from every repetition and every rule as long as tokens are left. At
the end of the script nothing more is taken, and only there it can go on for ever.

* `runWithin`: a run whose rules call each other at most so deep. The depth is all that bounds a run,
  besides the tokens that are left.
* `SettlesFor`: deeper rules do not change a run, unless it stands at the end.

Principal result: `run_settles`.
-/

namespace GdScribe

variable {σ : Type}

namespace Read

variable {w : Writer σ}

/-! ## Classes -/

section moves

variable (W : w.Prompt) {k : Nat}

include W

theorem Concur.announceClass : Concur k Eq (announceClass w) (announceClass w) := .get_bind fun _ => .ask W _

theorem Concur.startClass (name base : String) (isMain : Bool) :
    Concur k Eq (startClass w name base isMain) (startClass w name base isMain) :=
  (note _).bind fun _ => .bind (.modify fun _ => .of_same rfl rfl rfl rfl) fun _ =>
    (announceClass W).bind fun _ => .get_bind fun _ => .ask W _

theorem Concur.endClass : Concur k Eq (endClass w) (endClass w) :=
  .get_bind fun _ => .askThen W <| (note _).bind fun _ =>
    .bind (.modify fun _ => .of_same rfl rfl rfl rfl) fun _ => .announceClass W

theorem Concur.innerClass {x y : ReadM σ Unit} (h : Concur k Eq x y) :
    Concur k Eq (innerClass w x) (innerClass w y) := by
  have base : Concur k Eq (nameAfter "extends" "Object" : ReadM σ String) _ :=
    (expect _).bind fun _ => .ite .consume (.pure _)
  exact consume.bind fun _ => base.bind fun _ => (startClass W ..).bind fun _ =>
    (expect _).bind fun _ => goDeeper.bind fun _ => h.bind fun _ => .endClass W

end moves

namespace RulesConcur

section members

variable (W : w.Prompt) {k : Nat} {r r' : Rules σ} (H : RulesConcur k r r')

include W H

theorem recover : Concur (k + 1) Eq (recover w r) (recover w r') := by
  refine Concur.current.bind fun t => (Concur.core.valuesUpTo rfl fun h => by rw [h]).bind fun dropped => ?_
  refine Concur.current.bind fun t' => Concur.consume.bind fun v => (Concur.core.levelOf _ v).bind fun n => ?_
  refine (Concur.note _).bind fun _ => (Concur.askThen W <| .print _).bind fun _ => ?_
  exact .bind (.modify fun _ => .of_same rfl rfl rfl rfl) fun _ =>
    (H.blocked (Concur.members W).toLaws).bind fun _ => .pure _

theorem scripts : (Logic.concur σ).ScriptLaws k w w r r' where
  toCore := Concur.core
  item static hj h :=
    .pastWord _ (.innerClass W h) ((H.plainItem (Concur.members W) static).mono (Nat.succ_le_succ hj))
  announced h := .get_bind fun _ => (Concur.note _).bind fun _ => h
  note n _ := .note n
  trace := .trace
  endLine := (Concur.lines W).endLine
  recover := H.recover W
  isTool _ := .modify fun _ => .of_same rfl rfl rfl rfl
  startScript name base := .startClass W name base true
  endScript := .ask W _

end members

end RulesConcur

end Read

/-! ## Runs -/

/-- A run of a script whose rules call each other at most `n` deep. -/
def runWithin (n : Nat) (w : Writer σ) (scriptName text : String) (desk : Desk σ) : Outcome σ :=
  let scanned := scan (text ++ "\n")
  match scanned.lexemes with
  | [] => { fault := some .noToken, token := none, classes := [],
            desk := desk.print scanned.closing }
  | first :: rest =>
    .ofResult <| Read.script w (Read.rules w n) scriptName
      { current := first.token, ahead := rest, closing := scanned.closing,
        desk := desk.print first.notices }

variable {text : String} {x : EStateM.Result Fault (Reader σ) Unit} {w : Writer σ}

theorem runWithin_cons (n : Nat) (w : Writer σ) (name : String) (desk : Desk σ)
    {first : Lexeme} {rest : List Lexeme} (h : (scan (text ++ "\n")).lexemes = first :: rest) :
    runWithin n w name text desk = .ofResult (Read.script w (Read.rules w n) name
      (startOf text desk first rest)) := by
  unfold runWithin
  simp only [h]

/-- How many tokens a script has. -/
def tokenCount (text : String) : Nat := (scan (text ++ "\n")).lexemes.length

/-- A run stands at the end of its script. -/
def Outcome.AtEnd (o : Outcome σ) : Prop := ∃ t, o.token = some t ∧ t.kind = .eof

/-- A run has returned, or ended in a fault other than the want of rounds or depth, and does so with
whatever depth is enough for the tokens of the script; or with each such depth it stands at the end. -/
def SettlesFor (w : Writer σ) (name text : String) (desk : Desk σ) : Prop :=
  ((run w name text desk).fault ≠ some .endless ∧
    ∀ i, runWithin (tokenCount text + i) w name text desk = run w name text desk) ∨
  (run w name text desk).AtEnd ∧ ∀ i, (runWithin (tokenCount text + i) w name text desk).AtEnd

theorem Outcome.atEnd_ofResult (h : (Read.endState x).left = 0) : (ofResult x).AtEnd := by
  cases x with
  | ok _ s | error _ s => exact ⟨s.current, rfl, (Reader.left_eq_zero.mp h).1⟩

/-- Runs of two depths that are enough: they are the same and no want of depth, or both stand at the
end. -/
theorem runWithin_settled (W : w.Prompt) (name text : String) (desk : Desk σ) (i j : Nat) :
    (runWithin (tokenCount text + i) w name text desk = runWithin (tokenCount text + j) w name text desk ∧
      (runWithin (tokenCount text + i) w name text desk).fault ≠ some .endless) ∨
    (runWithin (tokenCount text + i) w name text desk).AtEnd ∧
      (runWithin (tokenCount text + j) w name text desk).AtEnd := by
  cases hl : (scan (text ++ "\n")).lexemes with
  | nil =>
    unfold runWithin
    simp only [hl]
    exact .inl ⟨trivial, nofun⟩
  | cons first rest =>
    rw [runWithin_cons _ w name desk hl, runWithin_cons _ w name desk hl]
    have few : (startOf text desk first rest).left ≤ tokenCount text := by
      rw [tokenCount, hl]
      exact Reader.left_le _
    have concur := ((Read.RulesConcur.rules W (tokenCount text) i j).scripts W).script name
    rcases concur.settled _ few with
      ⟨_, _, _, hx, hy, rfl⟩ | ⟨e, _, hx, hy, ne⟩ | ⟨l, r⟩
    · rw [hx, hy]
      exact .inl ⟨rfl, nofun⟩
    · rw [hx, hy]
      exact .inl ⟨rfl, fun h => ne (Option.some.inj h)⟩
    · exact .inr ⟨Outcome.atEnd_ofResult l, Outcome.atEnd_ofResult r⟩

theorem settlesFor_of_prompt (W : w.Prompt) (name text : String) (desk : Desk σ) : SettlesFor w name text desk := by
  have settled := runWithin_settled W name text desk 8
  unfold SettlesFor run
  by_cases h : (runWithin (Read.depth (tokenCount text)) w name text desk).AtEnd
  · refine .inr ⟨h, fun i => ?_⟩
    rcases settled i with ⟨same, -⟩ | ⟨-, hi⟩
    · rw [← same]
      exact h
    · exact hi
  · have same (i : Nat) := (settled i).resolve_right fun e => h e.1
    exact .inl ⟨(same 0).2, fun i => (same i).1.symm⟩

/-- **Only at the end of a script can its reading go on for ever**, whichever of the three targets it
is read for: rules that may be nested as deep as the script has tokens, with repetitions that are
bounded by the tokens left, bring every run to a return, to another fault, or to the end. -/
theorem run_settles (name text : String) : (∀ desk, SettlesFor Collect.writer name text desk) ∧
    (∀ s desk, SettlesFor (CSharp.writer s) name text desk) ∧
    ∀ s desk, SettlesFor (CPlusPlus.writer s) name text desk :=
  ⟨settlesFor_of_prompt Collect.writer_prompt name text,
    fun s => settlesFor_of_prompt (CSharp.writer_prompt s) name text,
    fun s => settlesFor_of_prompt (CPlusPlus.writer_prompt s) name text⟩

end GdScribe
