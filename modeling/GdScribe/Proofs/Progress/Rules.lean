import GdScribe.Proofs.Progress.Rounds
import GdScribe.Proofs.Target.Manner

/-!
# Bounds on nested rules

Between two uses of the rules that call each other a token is taken. So rules that may be nested as
often as there are tokens left concur with rules that may be nested more often.

* `RulesConcur`: the rules of two bounds concur. One level of descent needs one token more than the rules
  that it calls.

Principal result: `RulesConcur.rules`.
-/

namespace GdScribe

variable {σ τ α : Type}

/-- The manner of actions that print nothing and never fail for want of rounds. -/
def Manner.prompt (σ : Type) : Manner σ where
  change d d' := d'.printedLines = d.printedLines
  fails e d d' := d'.printedLines = d.printedLines ∧ e ≠ .endless
  refl _ := rfl
  trans h h' := h'.trans h
  fault _ _ h := ⟨rfl, by rintro rfl; cases h⟩
  trans_fails h h' := ⟨h'.1.trans h, h'.2⟩

def PageManner.prompt {owns : τ → τ → Prop} (owns_refl : ∀ o, owns o o) : PageManner τ owns :=
  .ofPages (.prompt _) owns_refl (fun _ _ _ => rfl) fun d _ => Read.printed_note d.log rfl

theorem Page.takePage_prompt : (Manner.prompt (Pages τ)).Allows takePage := fun _ => rfl

/-- A target that prints nothing and never fails for want of rounds. -/
structure Writer.Prompt (w : Writer σ) : Prop where
  serve : ∀ q, (Manner.prompt σ).Allows (w.serve q)
  takePage : (Manner.prompt σ).Allows w.takePage

theorem Collect.writer_prompt : writer.Prompt := ⟨serve_allowed (.prompt _), .pure _⟩

theorem CSharp.writer_prompt (s : Target.Settings) : (writer s).Prompt :=
  ⟨fun q => serve_allowed (.prompt fun _ => trivial) s q (fun _ _ _ _ => rfl) fun _ => trivial, Page.takePage_prompt⟩

theorem CPlusPlus.writer_prompt (s : Target.Settings) : (writer s).Prompt :=
  ⟨fun q => serve_allowed s (.prompt fun _ => ⟨rfl, rfl⟩) q (fun _ _ _ _ => rfl)
    (fun _ => .of_all (fun _ _ _ => rfl) fun _ _ => ⟨rfl, nofun⟩) (fun _ _ _ => rfl)
    (fun _ _ _ _ _ _ => rfl) fun _ => trivial,
    Page.takePage_prompt⟩

namespace Read

namespace Concur

variable {k : Nat} {x y : ReadM σ α}

section target

variable {w : Writer σ} (W : w.Prompt)

include W

omit W in
/-- An action at the desk that prints nothing and never fails for want of rounds. -/
theorem atDesk {act : DeskM σ α} (h : (Manner.prompt σ).Allows act) :
    Concur k Eq (Read.atDesk act) (Read.atDesk act) := by
  have on : GoesOn (Read.atDesk act) := by
    intro s
    have hd := h s.desk
    unfold Read.atDesk
    cases hs : act s.desk with
    | ok a d => rw [hs] at hd; exact .of_same rfl rfl rfl hd
    | error e d => rw [hs] at hd; exact .of_same rfl rfl rfl hd.1
  refine ⟨on, on, fun s _ => ?_⟩
  have hd := h s.desk
  unfold Read.atDesk
  cases hs : act s.desk with
  | ok a d => exact .inl ⟨a, a, _, rfl, rfl, rfl⟩
  | error e d => rw [hs] at hd; exact .inr (.inl ⟨e, _, rfl, rfl, hd.2⟩)

theorem ask (q : Request) : Concur k Eq (ask w q) (ask w q) :=
  bind (modify fun _ => .of_same rfl rfl rfl rfl) fun _ => atDesk (W.serve q)

theorem askThen {Q : α → α → Prop} {q : Request} (h : Concur k Q x y) :
    Concur k Q (Read.ask w q >>= fun _ => x) (Read.ask w q >>= fun _ => y) := (ask W q).bind fun _ => h

theorem takePage : Concur k Eq (takePage w) (takePage w) := atDesk W.takePage

theorem onPage (h : Concur k Eq x y) : Concur k Eq (onPage w x) (onPage w y) :=
  (ask W _).bind fun _ => h.bind fun _ => (takePage W).bind fun _ => .pure _

theorem deepen (q : Request) : Concur k Eq (deepen w q) (deepen w q) :=
  goDeeper.bind fun _ => (ask W q).bind fun _ => .get_bind fun _ => .pure _

theorem lines : (Logic.concur σ).LineLaws w w where
  toCore := core
  same := congrArg _
  pastMove := .pastMove
  ask q _ := ask W q
  leaveScopes := core.leaveScopes (ask W _) (fun _ => note _) fun _ => .modify fun _ => .of_same rfl rfl rfl rfl

end target

end Concur

/-! ## Rules with a bound -/

/-- The rules of two bounds concur. -/
abbrev RulesConcur (k : Nat) : Rules σ → Rules σ → Prop := RulesHold (.concur σ) k

section rules

variable {w : Writer σ} (W : w.Prompt)

include W

/-- **Prompt targets** let everything concur that is read. -/
theorem Concur.members : (Logic.concur σ).MemberLaws w w where
  toCore := core
  consumeString := .consumeString
  lineOr h hf := ((lines W).expectKind _).bind fun _ => .ite h (consume.bind hf)
  bareName name := (bareName name).imp fun a _ h => h ▸ ⟨rfl, .refl (fun _ => rfl) (fun _ => rfl) a.2⟩
  reportNot := current.bind fun _ => .print _
  setParens b := .modify fun _ => .of_same rfl rfl rfl rfl
  learn := .learn
  closure := .get_bind fun _ => (note _).bind fun _ => ((lines W).expectKind _).bind fun _ => .pure _
  ask h _ := h.eq ▸ .ask W _
  awaits h := h ▸ .ask W _
  onPage h := (onPage W h).imp fun _ _ h => h ▸ ⟨rfl, rfl⟩
  bracketed h := (ask W _).bind fun _ => (onPage W h).bind fun _ => .askThen W (.pure _)
  choiceHead byJump he := by
    rw [he.eq]
    exact .askThen W <| .askThen W <| (expect _).bind fun _ => (deepen W _).bind fun _ =>
      (ite (.pure _) (.takePage W)).bind fun _ => .result ⟨rfl, rfl⟩
  openScope := .deepen W _
  endLine := (lines W).endLine
  askMember h _ := h.eq ▸ .ask W _
  headLine := (lines W).headLine
  withAccessors hp h := hp.eq ▸ (deepen W _).bind fun _ => h.bindBy
    (fun _ => List.forall₂_same.mpr fun _ _ => .refl (fun _ => rfl) _) fun _ _ hs => AccessorAlike.all_eq hs ▸ .ask W _
  resuming h := .get_bind fun _ => h.bind fun _ => .modify fun _ => .of_same rfl rfl rfl rfl
  record e _ := .record e
  putMethod h := h.eq ▸ (Concur.record _).bind fun _ => .get_bind fun _ => .ask W _

namespace RulesConcur

theorem succ {k m n : Nat} (H : RulesConcur k (rules w m) (rules w n)) :
    RulesConcur (k + 1) (rules w (m + 1)) (Read.rules w (n + 1)) :=
  have L := (Concur.members W).toLaws
  ⟨H.expressed L, H.chosen L, H.compared L, H.summed L, H.referred L, H.followed L, H.blocked L⟩

theorem self (n : Nat) : RulesConcur n (rules w n) (rules w n) := by
  induction n with
  | zero =>
    exact ⟨.zero .refl .refl, .zero .refl .refl, .zero .refl .refl, .zero .refl .refl,
      fun _ _ => .zero .refl .refl, fun _ => .zero .refl .refl, .zero .refl .refl⟩
  | succ n ih => exact succ W ih

/-- **Rules with two bounds** concur wherever no more tokens are left than both allow. By induction on
that number. -/
theorem rules (k i j : Nat) : RulesConcur k (rules w (k + i)) (rules w (k + j)) := by
  induction k with
  | zero =>
    have a := self W i
    have b := self W j
    rw [Nat.zero_add, Nat.zero_add]
    exact ⟨.zero a.expression.first b.expression.first, .zero a.ternary.first b.ternary.first,
      .zero a.boolean.first b.boolean.first, .zero a.sum.first b.sum.first,
      fun t s => .zero (a.reference t s).first (b.reference t s).first,
      fun t => .zero (a.follow t).first (b.follow t).first, .zero a.block.first b.block.first⟩
  | succ k ih =>
    rw [Nat.add_right_comm, Nat.add_right_comm k 1 j]
    exact succ W ih

end RulesConcur

end rules

end Read

end GdScribe
