import GdScribe.Proofs.Reader.View

/-!
# Where a reader ends

`Leads` names the view in which an action ends. Where that view depends on more than the words, it is
described by a property instead.

* `Ends x a Q`: from the view `a`, the result and the view at the end are as `Q` tells.
* `Stays x a Q`: the same, and the reader has not moved.

Principal results: `Ends.bind`, and the rules of repetition `Ends.whileMoving` and
`Ends.whileExpected`, each from what one round does.
-/

namespace GdScribe.Read

variable {σ α β : Type} {a b : View σ}

/-- From the view `a` an action ends well, in a view and with a result that have `Q`. For each word
that is gone, the reader has moved at least once. -/
def Ends (x : ReadM σ α) (a : View σ) (Q : α → View σ → Prop) : Prop :=
  ∀ s, s.view = a → ∃ r s', x s = .ok r s' ∧ Q r s'.view ∧ s.moves + a.words.length ≤ s'.moves + s'.view.words.length

/-- From the view `a` an action ends well without a move. -/
def Stays (x : ReadM σ α) (a : View σ) (Q : α → View σ → Prop) : Prop :=
  ∀ s, s.view = a → ∃ r s', x s = .ok r s' ∧ Q r s'.view ∧ s'.moves = s.moves

variable {x : ReadM σ α} {Q : α → Prop} {R : β → View σ → Prop}

theorem Leads.ends (h : Leads x a b Q) : Ends x a fun r v => Q r ∧ v = b := by
  intro s hs
  obtain ⟨r, s', hr, hq, hv, hm⟩ := h s hs
  exact ⟨r, s', hr, ⟨hq, hv⟩, by rw [hv]; exact hm⟩

variable {f : α → ReadM σ β}

/-- **Actions in a row.** -/
theorem Ends.bind {Q : α → View σ → Prop} (hx : Ends x a Q) (hf : ∀ r v, Q r v → Ends (f r) v R) :
    Ends (x >>= f) a R := by
  intro s hs
  obtain ⟨r, s', hr, hq, hm⟩ := hx s hs
  obtain ⟨r', s'', hr', hq', hm'⟩ := hf r _ hq s' rfl
  exact ⟨r', s'', by rw [bind_ok hr, hr'], hq', by omega⟩

theorem Leads.bindEnds (hx : Leads x a b Q) (hf : ∀ r, Q r → Ends (f r) b R) : Ends (x >>= f) a R :=
  hx.ends.bind fun r _ h => h.2 ▸ hf r h.1

variable {r : α}

theorem Leads.thenEnds (hx : Leads x a b (· = r)) (hf : Ends (f r) b R) : Ends (x >>= f) a R :=
  hx.bindEnds fun _ h => h ▸ hf

variable {p : Prop}

namespace Ends

variable {Q : α → View σ → Prop} {R : β → View σ → Prop}

variable {x y : ReadM σ α} {k : TokenKind} {ws : List Word}

theorem mono {P : α → View σ → Prop} (h : Ends x a P) (hpq : ∀ r v, P r v → Q r v) : Ends x a Q := fun s hs =>
  have ⟨r, s', hx, hp, hm⟩ := h s hs
  ⟨r, s', hx, hpq r _ hp, hm⟩

theorem pure (h : Q r a) : Ends (pure r : ReadM σ α) a Q :=
  fun s hs => ⟨r, s, rfl, hs ▸ h, hs ▸ Nat.le_refl _⟩

theorem get_bind {f : Reader σ → ReadM σ β} (h : ∀ s, s.view = a → Ends (f s) a R) : Ends (get >>= f) a R :=
  fun s hs => h s hs s hs

theorem ite_pos [Decidable p] (hp : p) (h : Ends x a Q) : Ends (if p then x else y) a Q := by
  rw [if_pos hp]
  exact h

theorem ite_neg [Decidable p] (hp : ¬ p) (h : Ends y a Q) : Ends (if p then x else y) a Q := by
  rw [if_neg hp]
  exact h

variable {z : ReadM σ α}

theorem miss {v x : String} (h : a.words = (k, v) :: ws) (hx : v ≠ x) (hz : Ends z a Q) :
    Ends (expect x >>= fun f => if f = true then y else z) a Q :=
  (Leads.expect_miss h hx).thenEnds (ite_neg nofun hz)

theorem hit {x : String} {w : Word} (h : a.words = (k, x) :: w :: ws) (hy : Ends y { a with words := w :: ws } Q) :
    Ends (expect x >>= fun f => if f = true then y else z) a Q :=
  (Leads.expect_hit h).thenEnds (ite_pos rfl hy)

end Ends

namespace Stays

variable {Q : α → View σ → Prop} {R : β → View σ → Prop}

theorem pure (h : Q r a) : Stays (pure r : ReadM σ α) a Q := fun s hs => ⟨r, s, rfl, hs ▸ h, rfl⟩

variable {x : ReadM σ α}

theorem bind (hx : Stays x a Q) (hf : ∀ r v, Q r v → Stays (f r) v R) : Stays (x >>= f) a R := by
  intro s hs
  obtain ⟨r, s', hr, hq, hm⟩ := hx s hs
  obtain ⟨r', s'', hr', hq', hm'⟩ := hf r _ hq s' rfl
  exact ⟨r', s'', by rw [bind_ok hr, hr'], hq', hm'.trans hm⟩

theorem ends (h : Stays x a Q) (hw : ∀ r v, Q r v → v.words.length = a.words.length) : Ends x a Q := by
  intro s hs
  obtain ⟨r, s', hr, hq, hm⟩ := h s hs
  exact ⟨r, s', hr, hq, Nat.le_of_eq (by rw [hm, hw r _ hq])⟩

theorem ask {w : Writer σ} {q : Request} {t : ClassTable} {p : σ}
    (h : Serves (w.serve q) a.table a.pages t p) :
    Stays (ask w q) a fun _ v => v = { a with table := t, pages := p } := fun s hs =>
  have ⟨r, s', hr, _, hv, hm⟩ := Leads.view_atDesk h (s := { s with asked := q :: s.asked }) hs
  ⟨r, s', hr, hv, hm⟩

end Stays

/-! ## Repetition -/

section rounds

variable {cond : ReadM σ Bool} {body : β → ReadM σ (ForInStep β)}
variable {I Q : β → View σ → Prop} {c : View σ → Bool}

/-- What one round of a repetition does, as long as the invariant and the condition hold: it keeps the
invariant, and leaves fewer words or a condition that does not hold, or it ends the repetition because
the reader has not moved. -/
def Round (body : β → ReadM σ (ForInStep β)) (c : View σ → Bool) (I Q : β → View σ → Prop) (b : β)
    (v : View σ) : Prop :=
  Ends (body b) v (fun r v' => ∃ b', r = .yield b' ∧ I b' v' ∧ (v'.words.length < v.words.length ∨ c v' = false)) ∨
    Stays (body b) v fun r v' => ∃ b', r = .yield b' ∧ Q b' v' ∧ v'.words.length = v.words.length

variable (hc : ∀ b v, I b v → Leads cond v v (· = c v))

include hc

variable (hdone : ∀ b v, I b v → c v = false → Q b v)

include hdone

/-- Where the condition does not hold nothing more is done, whether the reader has moved or not. -/
theorem moveRounds_stops
    {n : Nat} {last : Option Nat} {b : β} {s : Reader σ} (hinv : I b s.view) (hf : c s.view = false) :
    ∃ r s', moveRounds cond body (n + 1) last b s = .ok r s' ∧ Q r s'.view ∧
      s.moves + s.view.words.length ≤ s'.moves + s'.view.words.length := by
  by_cases hl : last = some s.moves
  · refine ⟨b, s, ?_, hdone b _ hinv hf, Nat.le_refl _⟩
    rw [moveRounds, get_bind_apply, if_pos hl]
    rfl
  · obtain ⟨_, s0, hr, rfl, hv, hm⟩ := hc b s.view hinv s rfl
    rw [hf] at hr
    exact ⟨b, s0, moveRounds_false hl hr n, hv ▸ hdone b _ hinv hf, by rw [hv]; omega⟩

theorem moveRounds_ends (hbody : ∀ b v, I b v → c v = true → Round body c I Q b v) :
    ∀ n last b s, s.view.words.length + 1 < n → I b s.view → last ≠ some s.moves →
      ∃ r s', moveRounds cond body n last b s = .ok r s' ∧ Q r s'.view ∧
        s.moves + s.view.words.length ≤ s'.moves + s'.view.words.length := by
  intro n
  induction n with
  | zero => intro last b s hn; omega
  | succ n ih =>
    intro last b s hn hinv hl
    cases hcv : c s.view with
    | false => exact moveRounds_stops hc hdone hinv hcv
    | true =>
      obtain ⟨_, s0, hr, rfl, hv, hm⟩ := hc b s.view hinv s rfl
      rw [hcv] at hr
      obtain ⟨n, rfl⟩ : ∃ k, n = k + 1 := ⟨n - 1, by omega⟩
      rcases hbody b s.view hinv hcv with hb | hb
      · obtain ⟨_, s', hr', ⟨b', rfl, hinv', hless⟩, hm'⟩ := hb s0 hv
        obtain ⟨r, s'', hr'', hq, hm''⟩ := hless.elim
          (fun hless => ih (some s0.moves) b' s' (by omega) hinv' (by rw [ne_eq, Option.some_inj]; omega))
          (moveRounds_stops hc hdone hinv')
        exact ⟨r, s'', by rw [moveRounds_yield hl hr hr', hr''], hq, by omega⟩
      · obtain ⟨_, s', hr', ⟨b', rfl, hq, hsame⟩, hm'⟩ := hb s0 hv
        refine ⟨b', s', ?_, hq, by omega⟩
        rw [moveRounds_yield hl hr hr', moveRounds, get_bind_apply, if_pos (by rw [hm'])]
        rfl

/-- **Repetition.** -/
theorem Ends.whileMoving (hbody : ∀ b v, I b v → c v = true → Round body c I Q b v) {b : β} (h : I b a) :
    Ends (whileMoving cond body b) a Q := by
  refine Leads.roundsLeft.thenEnds fun s hs => ?_
  subst hs
  exact moveRounds_ends hc hdone hbody _ none b s (by omega) h nofun

omit hc

omit hdone

theorem Ends.whileMoving_done {b : β} (hc : Leads cond a a (· = true))
    (hb : Ends (body b) a fun r v => ∃ b', r = .done b' ∧ Q b' v) : Ends (Read.whileMoving cond body b) a Q := by
  refine Leads.roundsLeft.thenEnds fun s hs => ?_
  obtain ⟨_, s0, hr, rfl, hv, hm⟩ := hc s hs
  obtain ⟨_, s', hr', ⟨b', rfl, hq⟩, hm'⟩ := hb s0 hv
  exact ⟨b', s', moveRounds_done (Option.some_ne_none _).symm hr hr' _, hq, by omega⟩

/-- **Repetition after a word.** Each round either finds the word missing, or passes it and leaves
fewer words. -/
theorem Ends.whileExpected {x : String} (hbody : ∀ b v, I b v → Leads (expect x) v v (· = false) ∧ Q b v ∨
      ∃ u, Leads (expect x) v u (· = true) ∧ Ends (body b) u fun r v' =>
        ∃ b', r = .yield b' ∧ I b' v' ∧ v'.words.length < v.words.length)
    {b : β} (h : I b a) : Ends (whileExpected x body b) a Q := by
  have rounds : ∀ n b s, s.view.words.length < n → I b s.view →
      ∃ r s', expectRounds x body n b s = .ok r s' ∧ Q r s'.view ∧
        s.moves + s.view.words.length ≤ s'.moves + s'.view.words.length := by
    intro n
    induction n with
    | zero => intro b s hn; omega
    | succ n ih =>
      intro b s hn hinv
      unfold expectRounds
      rcases hbody b s.view hinv with ⟨hx, hq⟩ | ⟨u, hx, hb⟩
      · obtain ⟨_, s0, hr, rfl, hv, hm⟩ := hx s rfl
        exact ⟨b, s0, by rw [bind_ok hr]; rfl, hv ▸ hq, by rw [hv]; exact hm⟩
      · obtain ⟨_, s0, hr, rfl, hv, hm⟩ := hx s rfl
        obtain ⟨_, s', hr', ⟨b', rfl, hinv', hless⟩, hm'⟩ := hb s0 hv
        obtain ⟨r, s'', hr'', hq, hm''⟩ := ih b' s' (by omega) hinv'
        refine ⟨r, s'', ?_, hq, by omega⟩
        rw [bind_ok hr, if_pos rfl, bind_ok hr']
        exact hr''
  refine Leads.roundsLeft.thenEnds fun s hs => ?_
  subst hs
  exact rounds _ b s (by omega) h

end rounds

end GdScribe.Read
