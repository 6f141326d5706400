import GdScribe.Proofs.Reader.Descent
import GdScribe.Proofs.Reader.View

/-!
# Rounds and the tokens that are left

Every move takes a token until the end is in view, and from there on nothing but the end comes.
Repetitions and nested rules have bounds on their rounds; what is shown here is that the bounds are
never felt before the end.

* `Reader.left`: the tokens that are left, none at the end.
* `SameOrDone`: two results are alike and come from no want of rounds, or both stand at the end.
* `Logic.concur`: what is said of two actions here, so that it is carried through whatever is read.

Principal results: `Concur.moveRounds`, `Concur.bounded`, `Concur.pastWord` and `Concur.pastToken`.
-/

namespace GdScribe

open EStateM (Result)

variable {σ α β : Type}

/-! ## The tokens that are left -/

/-- How many tokens are left, with the one in view; the end itself does not count. -/
def Reader.left (s : Reader σ) : Nat := if s.current.kind = .eof ∧ s.ahead = [] then 0 else s.ahead.length + 1

namespace Reader

theorem left_eq_zero {s : Reader σ} : s.left = 0 ↔ s.current.kind = .eof ∧ s.ahead = [] := by
  unfold left
  split <;> simp_all

theorem left_le (s : Reader σ) : s.left ≤ s.ahead.length + 1 := by
  unfold left
  split <;> omega

theorem left_next (s : Reader σ) : s.next.left ≤ s.left - 1 := by
  cases h : s.ahead with
  | nil =>
    have ended : s.next.left = 0 := left_eq_zero.mpr (by unfold next; rw [h]; exact ⟨rfl, rfl⟩)
    omega
  | cons l rest =>
    have counted : s.left = rest.length + 2 := by
      unfold left
      rw [if_neg (by rw [h]; exact fun e => nomatch e.2), h]
      rfl
    have : s.next.left ≤ rest.length + 1 := by
      have := left_le s.next
      unfold next at this ⊢
      rw [h] at this ⊢
      exact this
    omega

/-- From one state to a later one, each move has taken a token, if one was left, and what was printed
stays. -/
structure Onward (s s' : Reader σ) : Prop where
  moves : s.moves ≤ s'.moves
  left : s'.left ≤ s.left - (s'.moves - s.moves)
  lines : s.desk.printedLines <+: s'.desk.printedLines

namespace Onward

theorem refl (s : Reader σ) : s.Onward s := ⟨Nat.le_refl _, by omega, List.prefix_rfl⟩

variable {s s' : Reader σ}

theorem trans {t u : Reader σ} (h : s.Onward t) (h' : t.Onward u) : s.Onward u := by
  obtain ⟨m, l, p⟩ := h
  obtain ⟨m', l', p'⟩ := h'
  exact ⟨by omega, by omega, p.trans p'⟩

theorem next (s : Reader σ) : s.Onward s.next := by
  have := Read.moves_next s
  have := s.left_next
  refine ⟨by omega, by omega, ?_⟩
  unfold Reader.next Desk.printedLines
  split <;> rw [Read.printed_print] <;> exact List.prefix_append ..

theorem of_same (hc : s'.current = s.current) (ha : s'.ahead = s.ahead)
    (hm : s'.moves = s.moves) (hl : s'.desk.printedLines = s.desk.printedLines) : s.Onward s' := by
  have same : s'.left = s.left := by unfold Reader.left; rw [hc, ha]
  exact ⟨by omega, by omega, hl ▸ List.prefix_rfl⟩

theorem print (s : Reader σ) (lines : List String) : s.Onward { s with desk := s.desk.print lines } := by
  refine ⟨Nat.le_refl _, ?_, ?_⟩
  · show s.left ≤ s.left - (s.moves - s.moves)
    omega
  unfold Desk.printedLines
  rw [Read.printed_print]
  exact List.prefix_append ..

theorem trace (s : Reader σ) (line : String) : s.Onward { s with desk := s.desk.note (.readStep line) } :=
  .of_same rfl rfl rfl (Read.printed_note s.desk.log rfl)

theorem left_le (h : s.Onward s') : s'.left ≤ s.left := by
  have := h.left
  omega

theorem left_zero (h : s.Onward s') (h0 : s.left = 0) : s'.left = 0 := by
  have := h.left_le
  omega

end Onward

end Reader

namespace Read

/-- An action that never goes back. -/
def GoesOn (x : ReadM σ α) : Prop := ∀ s : Reader σ, s.Onward (endState (x s))

namespace GoesOn

variable {x : ReadM σ α} {body : β → ReadM σ (ForInStep β)}

theorem ok (h : GoesOn x) {s s' : Reader σ} {a : α} (hx : x s = .ok a s') : s.Onward s' := by
  have on := h s
  rw [hx] at on
  exact on

theorem pure (a : α) : GoesOn (pure a : ReadM σ α) := .refl

theorem bind {f : α → ReadM σ β} (hx : GoesOn x) (hf : ∀ a, GoesOn (f a)) : GoesOn (x >>= f) := by
  intro s
  have on := hx s
  rw [bind_apply]
  cases hs : x s with
  | ok a s' => rw [hs] at on; exact on.trans (hf a s')
  | error e s' => rw [hs] at on; exact on

theorem get_bind {f : Reader σ → ReadM σ β} (h : ∀ s, GoesOn (f s)) : GoesOn (get >>= f) := fun s => h s s

theorem ite {p : Prop} [Decidable p] {y : ReadM σ α} (hx : GoesOn x) (hy : GoesOn y) :
    GoesOn (if p then x else y) := by
  split
  · exact hx
  · exact hy

theorem moveRounds {c : ReadM σ Bool} (hc : GoesOn c)
    (hb : ∀ b, GoesOn (body b)) (n : Nat) : ∀ last b, GoesOn (moveRounds c body n last b) := by
  induction n with
  | zero => intro _ _; exact .refl
  | succ n ih =>
    intro last b
    refine .get_bind fun s => .ite (pure b) (hc.bind fun _ => .ite (.get_bind fun s => ?_) (pure b))
    refine (hb b).bind fun step => ?_
    cases step with
    | done b => exact pure b
    | yield b => exact ih _ b

end GoesOn

/-! ## Two actions that concur -/

/-- Two actions give related results in the same state, or the same fault that is no want of rounds, or both
have come to the end. -/
def SameOrDone (Q : α → α → Prop) (x y : Result Fault (Reader σ) α) : Prop :=
  (∃ a b s, x = .ok a s ∧ y = .ok b s ∧ Q a b) ∨ (∃ e s, x = .error e s ∧ y = .error e s ∧ e ≠ .endless) ∨
    (endState x).left = 0 ∧ (endState y).left = 0

variable {Q : α → α → Prop} {R : β → β → Prop} {f g : α → ReadM σ β}

/-- Actions in a row, from where the first ones end. Past the end all that follows stays there. -/
theorem SameOrDone.bind {x y : ReadM σ α} {s : Reader σ} (h : SameOrDone Q (x s) (y s))
    (onf : ∀ a, GoesOn (f a)) (ong : ∀ a, GoesOn (g a))
    (hf : ∀ a b s', x s = .ok a s' → Q a b → SameOrDone R (f a s') (g b s')) :
    SameOrDone R ((x >>= f) s) ((y >>= g) s) := by
  rw [bind_apply, bind_apply]
  rcases h with ⟨a, b, s', hx, hy, q⟩ | ⟨e, s', hx, hy, ne⟩ | ⟨hl, hr⟩
  · rw [hx, hy]
    exact hf a b s' hx q
  · rw [hx, hy]
    exact .inr (.inl ⟨e, s', rfl, rfl, ne⟩)
  · refine .inr (.inr ⟨?_, ?_⟩)
    · cases hx : x s with
      | ok a s' => rw [hx] at hl; exact (onf a s').left_zero hl
      | error e s' => rw [hx] at hl; exact hl
    · cases hy : y s with
      | ok a s' => rw [hy] at hr; exact (ong a s').left_zero hr
      | error e s' => rw [hy] at hr; exact hr

/-- Two actions that never go back and have settled results wherever at most `k` tokens are left. -/
structure Concur (k : Nat) (Q : α → α → Prop) (x y : ReadM σ α) : Prop where
  first : GoesOn x
  second : GoesOn y
  settled : ∀ s : Reader σ, s.left ≤ k → SameOrDone Q (x s) (y s)

namespace Concur

variable {k k' : Nat} {x y : ReadM σ α}

theorem mono (h : Concur k Q x y) (hk : k' ≤ k) : Concur k' Q x y :=
  ⟨h.first, h.second, fun s hs => h.settled s (Nat.le_trans hs hk)⟩

theorem imp (h : Concur k Q x y) {Q' : α → α → Prop} (hQ : ∀ a b, Q a b → Q' a b) : Concur k Q' x y :=
  ⟨h.first, h.second, fun s hs => (h.settled s hs).imp_left fun ⟨a, b, s', hx, hy, q⟩ => ⟨a, b, s', hx, hy, hQ a b q⟩⟩

theorem zero (hx : GoesOn x) (hy : GoesOn y) : Concur 0 Q x y :=
  ⟨hx, hy, fun s hs => .inr (.inr ⟨(hx s).left_zero (Nat.le_zero.mp hs), (hy s).left_zero (Nat.le_zero.mp hs)⟩)⟩

/-- Two actions that do, from each state, what two others do from a later one. -/
theorem of_later (h : ∀ s, ∃ k' s' x' y', Concur k' Q x' y' ∧ s.Onward s' ∧ (s.left ≤ k → s'.left ≤ k') ∧
      x s = x' s' ∧ y s = y' s') : Concur k Q x y := by
  refine ⟨fun s => ?_, fun s => ?_, fun s hs => ?_⟩ <;> obtain ⟨k', s', x', y', c, on, hk, hx, hy⟩ := h s
  · rw [hx]
    exact on.trans (c.first s')
  · rw [hy]
    exact on.trans (c.second s')
  · rw [hx, hy]
    exact c.settled s' (hk hs)

theorem result {a b : α} (h : Q a b) : Concur k Q (pure a : ReadM σ α) (pure b) :=
  ⟨.refl, .refl, fun s _ => .inl ⟨a, b, s, rfl, rfl, h⟩⟩

theorem pure (a : α) : Concur k Eq (pure a : ReadM σ α) (pure a) := result rfl

theorem of_ok {x : ReadM σ α} (h : ∀ s, ∃ a s', x s = .ok a s' ∧ s.Onward s') : Concur k Eq x x :=
  of_later fun s =>
    have ⟨a, s', hx, on⟩ := h s
    ⟨k, s', _, _, pure a, on, fun hs => Nat.le_trans on.left_le hs, hx, hx⟩

theorem throw {e : Fault} (h : e ≠ .endless) : Concur k Q (throw e : ReadM σ α) (throw e) :=
  ⟨.refl, .refl, fun s _ => .inr (.inl ⟨e, s, rfl, rfl, h⟩)⟩

theorem modify {f : Reader σ → Reader σ} (h : ∀ s : Reader σ, s.Onward (f s)) :
    Concur k Eq (modify f : ReadM σ PUnit) (modify f) :=
  of_ok fun s => ⟨.unit, f s, rfl, h s⟩

/-- **Actions in a row.** -/
theorem bindBy (hx : Concur k Q x y) (hQ : ∀ a, Q a a)
    (hf : ∀ a b, Q a b → Concur k R (f a) (g b)) : Concur k R (x >>= f) (y >>= g) := by
  have onf (a : α) : GoesOn (f a) := (hf a a (hQ a)).first
  have ong (a : α) : GoesOn (g a) := (hf a a (hQ a)).second
  refine ⟨hx.first.bind onf, hx.second.bind ong, fun s hs => (hx.settled s hs).bind onf ong fun a b s' h q => ?_⟩
  exact (hf a b q).settled s' (Nat.le_trans (hx.first.ok h).left_le hs)

theorem bind (hx : Concur k Eq x y) (hf : ∀ a, Concur k R (f a) (g a)) :
    Concur k R (x >>= f) (y >>= g) := hx.bindBy (fun _ => rfl) fun a _ h => h ▸ hf a

theorem get_bind {f g : Reader σ → ReadM σ α} (h : ∀ s, Concur k Q (f s) (g s)) :
    Concur k Q (get >>= f) (get >>= g) :=
  of_later fun s => ⟨k, s, f s, g s, h s, .refl s, id, rfl, rfl⟩

variable {x' y' : ReadM σ α}

theorem ite {p : Prop} [Decidable p] (h : Concur k Q x y) (h' : Concur k Q x' y') :
    Concur k Q (if p then x else x') (if p then y else y') := by
  split
  · exact h
  · exact h'

/-! ## Moves -/

theorem current : Concur k Eq (current : ReadM σ Token) current := .get_bind fun _ => .pure _

theorem valueIs (v : String) : Concur k Eq (valueIs v : ReadM σ Bool) (valueIs v) := .get_bind fun _ => .pure _

theorem trace (line : String) : Concur k Eq (trace line : ReadM σ Unit) (trace line) :=
  .modify fun s => .trace s line

theorem print (line : String) : Concur k Eq (print line : ReadM σ Unit) (print line) :=
  .modify fun s => .print s [line]

theorem note (n : Note) : Concur k Eq (note n : ReadM σ Unit) (note n) :=
  .modify fun _ => .of_same rfl rfl rfl rfl

theorem learn (name : String) (type : Ty) : Concur k Eq (learn name type : ReadM σ Unit) (learn name type) :=
  .modify fun _ => .of_same rfl rfl rfl rfl

theorem goDeeper : Concur k Eq (goDeeper : ReadM σ Unit) goDeeper := .modify fun _ => .of_same rfl rfl rfl rfl

theorem record (e : ClassEntry) : Concur k Eq (record e : ReadM σ Unit) (record e) :=
  .get_bind fun _ => (note _).bind fun _ => .modify fun _ => .of_same rfl rfl rfl rfl

theorem bareName (name : String) : Concur k Eq (bareName name : ReadM σ Typed) (bareName name) :=
  of_ok fun s =>
    have ⟨a, h⟩ := bareName_apply name s
    ⟨a, _, h, .of_same rfl rfl rfl rfl⟩

theorem advance : Concur k Eq (advance : ReadM σ Unit) advance := of_ok fun s => ⟨(), s.next, rfl, .next s⟩

theorem consume : Concur k Eq (consume : ReadM σ String) consume :=
  .get_bind fun _ => advance.bind fun _ => (trace _).bind fun _ => .pure _

theorem consumeString : Concur k Eq (consumeString : ReadM σ String) consumeString :=
  bind (modify fun _ => .of_same rfl rfl rfl rfl) fun _ => consume

theorem expect (v : String) : Concur k Eq (expect v : ReadM σ Bool) (expect v) :=
  (valueIs v).bind fun _ => .ite (advance.bind fun _ => .pure _) (.pure _)

theorem pastMove (h : Concur k Q x y) :
    Concur (k + 1) Q (Read.advance >>= fun _ => x) (Read.advance >>= fun _ => y) := by
  refine of_later fun s => ⟨k, s.next, x, y, h, .next s, fun hs => ?_, rfl, rfl⟩
  have := s.left_next
  omega

/-- **Past a token**, there is one token less to care for. -/
theorem pastToken {f g : String → ReadM σ α} (h : ∀ v, Concur k Q (f v) (g v)) :
    Concur (k + 1) Q (Read.consume >>= f) (Read.consume >>= g) := by
  refine of_later fun s => ⟨k, _, _, _, h s.current.value, ?_, ?_, bind_ok (consume_apply s),
    bind_ok (consume_apply s)⟩
  · exact (Reader.Onward.next s).trans (.trace ..)
  · intro hs
    have := s.left_next
    show s.next.left ≤ k
    omega

/-- Past the word in view, if it is the one that is looked for, there is one token less to care for. -/
theorem pastWord (v : String) (h : Concur k Q x y) (h' : Concur (k + 1) Q x' y') :
    Concur (k + 1) Q (Read.expect v >>= fun f => if f = true then x else x')
      (Read.expect v >>= fun f => if f = true then y else y') := by
  refine of_later fun s => ?_
  by_cases hv : s.current.value = v
  · have moved : Read.expect v s = .ok true s.next := (expect_apply v s).trans (if_pos hv)
    have := s.left_next
    exact ⟨k, s.next, x, y, h, .next s, by omega, bind_ok moved, bind_ok moved⟩
  · have stayed : Read.expect v s = .ok false s := (expect_apply v s).trans (if_neg hv)
    exact ⟨k + 1, s, x', y', h', .refl s, id, bind_ok stayed, bind_ok stayed⟩

/-! ## Repetition -/

/-- What is done with a bound for the rounds, which is never below the tokens that are left. -/
theorem rounds {f g : Nat → ReadM σ α} (h : ∀ n, Concur (min n k) Q (f n) (g n)) :
    Concur k Q (roundsLeft >>= f) (roundsLeft >>= g) := by
  refine of_later fun s => ⟨_, s, _, _, h (s.ahead.length + 4), .refl s, fun hs => ?_, rfl, rfl⟩
  have := s.left_le
  omega

section moving

variable {c d : ReadM σ Bool} {body body' : α → ReadM σ (ForInStep α)} (hQ : ∀ a, Q a a) (hc : Concur k Eq c d)
  (hb : ∀ a b, Q a b → Concur k (StepAlike Q) (body a) (body' b))

include hQ hc hb

/-- **Repetition.** By induction on the rounds that may follow: a round that moves takes a token, and
the one after a round that does not is the last. -/
theorem moveRounds (n : Nat) : ∀ (last : Option Nat) (a b : α) (s : Reader σ), Q a b → s.left ≤ k →
    (s.left < n ∨ last = some s.moves ∧ 0 < n ∨ s.left = 0) →
    SameOrDone Q (moveRounds c body n last a s) (moveRounds d body' n last b s) := by
  have on (a : α) : GoesOn (body a) := (hb a a (hQ a)).first
  have on' (a : α) : GoesOn (body' a) := (hb a a (hQ a)).second
  induction n with
  | zero =>
    intro last a b s _ _ h
    have ended : s.left = 0 := by omega
    exact .inr (.inr ⟨ended, ended⟩)
  | succ n ih =>
    intro last a b s q hs h
    have after {next : ForInStep α → ReadM σ α} (done : ∀ b, GoesOn (next (.done b)))
        (yield : ∀ b, GoesOn (next (.yield b))) (step : ForInStep α) : GoesOn (next step) := by
      cases step with
      | done b => exact done b
      | yield b => exact yield b
    rw [Read.moveRounds, Read.moveRounds, get_bind_apply, get_bind_apply]
    split
    · exact .inl ⟨a, b, s, rfl, rfl, q⟩
    have fresh : s.left < n + 1 ∨ s.left = 0 := by
      rcases h with h | ⟨h, -⟩ | h
      · exact .inl h
      · contradiction
      · exact .inr h
    refine (hc.settled s hs).bind (fun _ =>
      .ite (.get_bind fun _ => (on a).bind (after .pure (.moveRounds hc.first on n _))) (.pure a))
      (fun _ => .ite (.get_bind fun _ => (on' b).bind (after .pure (.moveRounds hc.second on' n _))) (.pure b))
      fun go _ s1 h1 same => ?_
    have on1 := hc.first.ok h1
    rw [← same]
    split
    · rw [get_bind_apply]
      refine ((hb a b q).settled s1 (Nat.le_trans on1.left_le hs)).bind (after .pure (.moveRounds hc.first on n _))
        (after .pure (.moveRounds hc.second on' n _)) fun step step' s2 h2 q' => ?_
      have on2 := (on a).ok h2
      cases step <;> cases step' <;> try exact q'.elim
      · exact .inl ⟨_, _, s2, rfl, rfl, q'⟩
      · have := on1.moves
        have := on1.left
        have := on2.moves
        have := on2.left
        refine ih (some s1.moves) _ _ s2 q' (by omega) ?_
        by_cases hm : s1.moves = s2.moves
        · have : 0 < n ∨ s2.left = 0 := by omega
          exact .inr (this.imp_left fun pos => ⟨congrArg some hm, pos⟩)
        · omega
    · exact .inl ⟨a, b, s1, rfl, rfl, q⟩

theorem whileMoving {a b : α} (q : Q a b) : Concur k Q (whileMoving c body a) (whileMoving d body' b) := by
  refine ⟨?_, ?_, fun s hs => ?_⟩
  · exact .bind .refl fun n => .moveRounds hc.first (fun a => (hb a a (hQ a)).first) n none a
  · exact .bind .refl fun n => .moveRounds hc.second (fun a => (hb a a (hQ a)).second) n none b
  · have := s.left_le
    exact moveRounds hQ hc hb (s.ahead.length + 4) none a b s q hs (.inl (by omega))

end moving

/-- **Bounded recursion.** By induction on the rounds: each takes a token. -/
theorem bounded {ι : Type} {f g : Nat → ι → ReadM σ α} (hf : ∀ i, f 0 i = MonadExcept.throw .endless)
    (hg : ∀ i, g 0 i = MonadExcept.throw .endless)
    (h : ∀ {j m n}, j ≤ k → (∀ i, Concur j Q (f m i) (g n i)) → ∀ i, Concur (j + 1) Q (f (m + 1) i) (g (n + 1) i))
    (n : Nat) : ∀ i, Concur (min n (k + 1)) Q (f n i) (g n i) := by
  induction n with
  | zero =>
    intro i
    rw [hf, hg]
    exact zero .refl .refl
  | succ n ih =>
    rw [Nat.succ_min_succ]
    exact h (Nat.min_le_right n k) fun i => (ih i).mono (by omega)

end Concur

/-- Two actions that concur, with so many tokens left. -/
abbrev Logic.concur (σ : Type) : Logic σ σ where
  token := Eq
  text := Eq
  contents := Eq
  Holds k _ := Concur k

theorem Concur.core : (Logic.concur σ).Core where
  toComparable := .eq
  less h := h.mono (Nat.le_succ _)
  pure := .result
  bind := .bindBy
  throw _ h := .throw h
  get_bind h := .get_bind fun s => h s s .refl
  expect _ := .expect _
  pastWord _ := .pastWord _
  consume := .consume
  pastToken := .pastToken
  whileMoving hQ hc hf := .whileMoving hQ hc hf
  bounded hf hg h i := .rounds fun n => .bounded hf hg h n i

end Read

end GdScribe
