import GdScribe.Proofs.Reader.Paired

/-!
# The moves of two readers

Every basic move of a reader is paired with itself, whatever the two targets are.

* `Paired.expect`, `Paired.consume`, `Paired.ask`, `Paired.onPage`: single moves.
* `Paired.whileMoving`, `Paired.bounded`: repetitions; related rounds give related ends. The two sides
  may have different numbers of rounds left.
* `Paired.dropLine`: lines that cannot be read.

Principal results: `Pairing.Moves.core`; `Pairing.LockStep.laws` — readers that find tokens of the same kinds
pass the ends of lines in the same way.
-/

namespace GdScribe.Read

open EStateM (Result)

variable {σ τ α β γ δ : Type} {P : Pairing σ τ} {v : Writer σ} {w : Writer τ}
variable {R : γ → δ → Prop} {Q : α → β → Prop}

variable {g : Reader τ → ReadM τ δ} {c : ReadM σ Bool}

theorem Paired.get_bind (L : P.Moves v w) {f : Reader σ → ReadM σ γ}
    (h : ∀ s t, Near P.token P.table s t → Paired P R (f s) (g t)) : Paired P R (get >>= f) (get >>= g) :=
  ⟨fun s t ag => (h s t (L.near ag)).agree s t ag, .get_bind fun s =>
    have ⟨t, n⟩ := L.near_total s
    (h s t n).lost⟩

/-- An action that looks at what only readers in agreement have in common. -/
theorem Paired.agree_bind {f : Reader σ → ReadM σ γ}
    (h : ∀ s t, P.agree s t → Paired P R (f s) (g t)) (hl : ∀ s, P.StaysLost (f s)) :
    Paired P R (get >>= f) (get >>= g) :=
  ⟨fun s t ag => (h s t ag).agree s t ag, .get_bind hl⟩

theorem Paired.set_fields (L : P.Moves v w) {f : Reader σ → Reader σ} {g : Reader τ → Reader τ}
    (h : ∀ s t, P.agree s t → P.agree (f s) (g t))
    (hf : ∀ s, (f s).current = s.current ∧ (f s).ahead = s.ahead ∧ (f s).passed = s.passed ∧
      (f s).strings = s.strings ∧ (f s).asked = s.asked ∧ s.history <:+ (f s).history) :
    Paired P Eq (modify f : ReadM σ PUnit) (modify g : ReadM τ PUnit) :=
  .change h fun s l =>
    have ⟨h1, h2, h3, h4, h5, h6⟩ := hf s
    L.lost_same l h1 h2 h3 h4 h5 h6

variable {x : String}

section moves

variable (L : P.Moves v w)

include L

theorem Pairing.Moves.lost_desk {s : Reader σ} (l : P.lost s) (d : Desk σ) : P.lost { s with desk := d } :=
  L.lost_same l rfl rfl rfl rfl rfl (List.suffix_refl _)

theorem Paired.trace (x : String) : Paired P Eq (trace x) (trace x) :=
  .change (fun _ _ ag => L.trace ag x) fun _ l => L.lost_desk l _

theorem Paired.note (m n : Note) : Paired P Eq (note m) (note n) :=
  .set_fields L (fun _ _ ag => L.history ag ..) fun s => ⟨rfl, rfl, rfl, rfl, rfl, List.suffix_cons m s.history⟩

theorem Paired.valueIs (hx : Tested x) : Paired P Eq (valueIs x) (valueIs x) :=
  .get_bind L fun _ _ n => .pure (L.word_beq n.current hx)

theorem Paired.advance : Paired P Eq advance advance :=
  ⟨fun _ _ ag => (L.step ag).imp_right fun ⟨_, _, ag'⟩ => ⟨rfl, ag'⟩, L.lost_next⟩

theorem Paired.expect (hx : Tested x) : Paired P Eq (expect x) (expect x) :=
  (valueIs L hx).bindEq fun _ => .ite (fun _ => (advance L).bindEq fun _ => .pure rfl)
    fun _ => .pure rfl

/-- What is consumed is the same on both sides, or the first reader is lost. -/
theorem Paired.consume : Paired P Eq consume consume := by
  constructor
  · intro s t ag
    rw [consume_apply]
    rcases L.step ag with l | ⟨-, h, ag'⟩
    · exact .inl (L.lost_desk l _)
    · have traced := L.trace ag' ("consumed: " ++ s.current.value)
      rw [h] at traced ⊢
      exact .inr ⟨rfl, traced⟩
  · intro s l
    exact L.lost_desk (L.lost_next s l) _

/-- A token that is moved over is of the same kind on both sides, or the first reader is lost. -/
theorem Paired.consumeKind {f : Token → String → ReadM σ γ} {g : Token → String → ReadM τ δ}
    (h : ∀ a b x, a.kind = b.kind → Paired P R (f a x) (g b x)) :
    Paired P R (current >>= fun t => Read.consume >>= f t) (current >>= fun t => Read.consume >>= g t) := by
  have stays (a : Token) (x : String) : P.StaysLost (f a x) := (h a a x rfl).lost
  refine ⟨fun s t ag => ?_, fun s l => ((consume L).lost.bind (stays s.current)) s l⟩
  show P.Match R ((Read.consume >>= f s.current) s) ((Read.consume >>= g t.current) t)
  rcases L.step ag with l | ⟨hk, -, -⟩
  · refine .of_lost (P.lost_after (stays _) ?_)
    exact L.lost_desk l _
  · exact ((consume L).bindEq fun x => h _ _ x hk).agree s t ag

theorem Paired.consumeString : Paired P P.contents consumeString consumeString :=
  ⟨fun _ _ ag => L.string ag, L.lost_string⟩

theorem Pairing.Moves.lost_atDesk (act : DeskM σ α) : P.StaysLost (atDesk act) := by
  intro s l
  rw [endState_atDesk]
  exact L.lost_desk l _

theorem Pairing.Moves.lost_asked (q : Request) (hq : q.isRemark = false) : P.StaysLost (ask v q) :=
  fun s l => L.lost_atDesk (v.serve q) _ (L.lost_ask s q hq l)

theorem Paired.ask {q q' : Request} (h : RequestAlike P.text P.contents q q')
    (hq : q.isRemark = false) : Paired P Eq (ask v q) (ask w q') :=
  ⟨fun _ _ ag => L.serve ag h hq, L.lost_asked q hq⟩

theorem Paired.takePage : Paired P P.text (takePage v) (takePage w) :=
  ⟨fun _ _ ag => L.take ag, L.lost_atDesk v.takePage⟩

variable {x : ReadM σ α}

/-- Related actions on a new page leave related results and related texts. -/
theorem Paired.onPage {y : ReadM τ α} {Q : α → α → Prop} (hQ : ∀ a, Q a a) (h : Paired P Q x y) :
    Paired P (fun a b => Q a.1 b.1 ∧ P.text a.2 b.2) (onPage v x) (onPage w y) :=
  (ask L (.same _) rfl).bindEq fun _ => h.bind (fun a => ⟨a, hQ a⟩) fun _ _ q =>
    (takePage L).bind (fun a => ⟨a, L.text_refl a⟩) fun _ _ t => .pure ⟨q, t⟩

/-- The rounds that are left may differ, since one reader may have more tokens before it. -/
theorem Paired.roundsLeft {f : Nat → ReadM σ γ} {g : Nat → ReadM τ δ} (h : ∀ n m, Paired P R (f n) (g m)) :
    Paired P R (roundsLeft >>= f) (roundsLeft >>= g) :=
  .get_bind L fun s t _ => h (s.ahead.length + 4) (t.ahead.length + 4)

theorem Paired.endless (hx : P.StaysLost x) : Paired P Q x (MonadExcept.throw .endless : ReadM τ β) :=
  ⟨fun _ _ _ => .lax_right L.endless _, hx⟩

theorem Paired.endlessFirst (y : ReadM τ β) : Paired P Q (MonadExcept.throw .endless : ReadM σ α) y :=
  ⟨fun _ _ _ => .lax_left L.endless _, fun _ l => l⟩

end moves

theorem Paired.step {Q : α → α → Prop} {f g : α → ReadM σ γ} {f' g' : α → ReadM τ δ}
    (hf : ∀ a b, Q a b → Paired P R (f a) (f' b)) (hg : ∀ a b, Q a b → Paired P R (g a) (g' b)) (a b : ForInStep α) :
    StepAlike Q a b → Paired P R (match a with | .done a => f a | .yield a => g a)
      (match b with | .done b => f' b | .yield b => g' b) := by
  intro h
  cases a <;> cases b
  · exact hf _ _ h
  · exact h.elim
  · exact h.elim
  · exact hg _ _ h

theorem Pairing.StaysLost.moveRounds {f : α → ReadM σ (ForInStep α)}
    (hc : P.StaysLost c) (hf : ∀ a, P.StaysLost (f a)) (n : Nat) :
    ∀ last a, P.StaysLost (moveRounds c f n last a) := by
  induction n with
  | zero => exact fun _ _ _ l => l
  | succ n ih =>
    refine fun last a => .get_bind fun s => .ite (fun _ l => l) (hc.bind fun _ => .ite ?_ fun _ l => l)
    refine .get_bind fun s' => (hf a).bind fun b => ?_
    cases b with
    | done b => exact fun _ l => l
    | yield b => exact ih _ _

theorem whileMoving_first {f : α → ReadM σ (ForInStep α)} {a : α} {s s' : Reader σ} (h : c s = .ok true s') :
    whileMoving c f a s = (f a >>= fun r => match r with
      | .done b => return b
      | .yield b => moveRounds c f (s.ahead.length + 3) (some s'.moves) b) s' := by
  show moveRounds c f (s.ahead.length + 3 + 1) none a s = _
  rw [moveRounds, get_bind_apply, if_neg nofun, bind_ok h]
  rfl

section repetitions

variable (L : P.Moves v w) {Q : α → α → Prop} (hQ : ∀ a, Q a a)

include L hQ

variable {c : ReadM σ Bool} {d : ReadM τ Bool} {f : α → ReadM σ (ForInStep α)} {g : α → ReadM τ (ForInStep α)}

/-- **Repetition.** By induction on the rounds that are left on the first side; one side moves in a round
if and only if the other one does. A first reader that goes on alone is lost in the round. -/
theorem Paired.moveRounds (hc : P.StaysLost c) (hcd : ∀ s t, P.agree s t → P.Match Eq (c s) (d t) ∨
      ∃ s', c s = .ok true s' ∧ ∀ a, P.lost (endState (f a s')))
    (hf : ∀ a b, Q a b → Paired P (StepAlike Q) (f a) (g b)) (n : Nat) :
    ∀ m last last' a b, last = last'.map P.place → Q a b →
      Paired P Q (moveRounds c f n last a) (moveRounds d g m last' b) := by
  have stays := hc.moveRounds fun a => (hf a a (hQ a)).lost
  induction n with
  | zero => exact fun _ _ _ _ _ _ _ => .endlessFirst L _
  | succ n ih =>
    intro m last last' a b hl q
    cases m with
    | zero => exact .endless L (stays _ _ _)
    | succ m =>
      have later (n : Nat) (b : ForInStep α) (here : Nat) : P.StaysLost
          (match b with | .done b => Pure.pure b | .yield b => Read.moveRounds c f n (some here) b) := by
        cases b with
        | done b => exact fun _ l => l
        | yield b => exact stays _ _ _
      have body (a : α) : P.StaysLost (do
          let here := (← get).moves
          match ← f a with
          | .done b => return b
          | .yield b => Read.moveRounds c f n (some here) b) :=
        .get_bind fun s => (hf a a (hQ a)).lost.bind fun b => later n b _
      refine ⟨fun s t ag => ?_, stays _ _ _⟩
      have moved : last = some s.moves ↔ last' = some t.moves := by
        rw [hl, L.moves ag]
        cases last' with
        | none => simp
        | some k => simp [L.place.eq_iff]
      show P.Match Q ((if last = some s.moves then _ else _ : ReadM σ α) s)
        ((if last' = some t.moves then _ else _ : ReadM τ α) t)
      by_cases hm : last = some s.moves
      · rw [if_pos hm, if_pos (moved.mp hm)]
        exact .inr ⟨q, ag⟩
      rw [if_neg hm, if_neg fun h => hm (moved.mpr h)]
      rcases hcd s t ag with hcd | ⟨s', hs', l⟩
      · refine hcd.bind (fun _ => .ite (body a) fun _ l => l) fun _ _ h => h ▸ .ite (fun _ => ?_) fun _ => .pure q
        refine .agree_bind (fun s t ag => ?_) fun s => (hf a a (hQ a)).lost.bind fun b => later n b _
        exact (hf a b q).bind (fun a => ⟨a, .refl hQ a⟩)
          (step (fun _ _ q => .pure q) fun _ _ q => ih _ _ _ _ _ (congrArg some (L.moves ag)) q)
      · refine .of_lost ?_
        rw [bind_apply, hs']
        exact P.lost_after (fun b => later n b _) (l a)

theorem Paired.whileMoving (hc : Paired P Eq c d)
    (hf : ∀ a b, Q a b → Paired P (StepAlike Q) (f a) (g b)) {a b : α} (q : Q a b) :
    Paired P Q (whileMoving c f a) (whileMoving d g b) :=
  .roundsLeft L fun n m => moveRounds L hQ hc.lost (fun s t ag => .inl (hc.agree s t ag)) hf n m
    none none a b rfl q

end repetitions

/-- **Bounded recursion.** By induction on the rounds of the first side, for all rounds of the second. -/
theorem Paired.bounded {ι : Type} (L : P.Moves v w) {f : Nat → ι → ReadM σ α} {g : Nat → ι → ReadM τ β}
    (hf : ∀ i, f 0 i = MonadExcept.throw .endless) (hg : ∀ i, g 0 i = MonadExcept.throw .endless)
    (h : ∀ {m n}, (∀ i, Paired P Q (f m i) (g n i)) → ∀ i, Paired P Q (f (m + 1) i) (g (n + 1) i)) (m : Nat) :
    ∀ n i, Paired P Q (f m i) (g n i) := by
  induction m with
  | zero =>
    intro n i
    rw [hf]
    exact .endlessFirst L _
  | succ m ih =>
    intro n i
    cases n with
    | zero =>
      rw [hg]
      exact .endless L (h (ih 0) i).lost
    | succ n => exact h (ih n) i

/-- Two actions that are paired, however many tokens are left. -/
abbrev Pairing.logic (P : Pairing σ τ) : Logic σ τ where
  token := P.token
  text := P.text
  contents := P.contents
  Holds _ _ := Paired P

theorem Near.alike (L : P.Moves v w) {s : Reader σ} {t : Reader τ} (n : Near P.token P.table s t) :
    Near P.token Table.Alike s t := { n with table := L.alike n.table }

theorem Pairing.Moves.core (L : P.Moves v w) : P.logic.Core where
  toComparable := L.toComparable
  less h := h
  pure h := .pure h
  bind hx refl hf := hx.bind (fun a => ⟨a, refl a⟩) hf
  throw _ _ := .throw _
  get_bind h := .get_bind L fun s t n => h s t (n.alike L)
  expect := .expect L
  pastWord hx h h' := (Paired.expect L hx).bindEq fun _ => .ite (fun _ => h) fun _ => h'
  consume := .consume L
  pastToken := (Paired.consume L).bindEq
  whileMoving hQ hc hf := .whileMoving L hQ hc hf
  bounded hf hg h i := .roundsLeft L fun m n => .bounded L hf hg (h (Nat.zero_le _)) m n i

section lines

variable (L : P.Moves v w)

include L

theorem Paired.consumeOne (acc : List String) : Paired P (StepAlike Eq) (do return .yield ((← Read.consume) :: acc))
      (do return .yield ((← Read.consume) :: acc)) :=
  (consume L).bindEq fun _ => .pure rfl

theorem Paired.dropLine :
    Paired P Eq (valuesUpTo "LINE_END" (· == .lineEnd)) (valuesUpTo "LINE_END" (· == .lineEnd)) := by
  refine bindEq (.roundsLeft L fun n m => ?_) fun _ => .pure rfl
  refine moveRounds L (fun _ => rfl) ?_ (fun s t ag => ?_)
    (fun acc _ h => h ▸ .consumeOne L acc) n m none none [] [] rfl rfl
  · exact fun _ l => l
  have word := L.word_beq (x := "LINE_END") (L.near ag).current rfl
  rcases L.kind (L.near ag).current with hk | ⟨hw, hs, ht⟩
  · refine .inl (.inr ⟨?_, ag⟩)
    rw [word, hk]
  · refine .inr ⟨s, ?_, fun acc => ?_⟩
    · show Result.ok (!(s.current.value == "LINE_END" || s.current.kind == .lineEnd)) s = _
      have other : s.current.value ≠ "LINE_END" := fun h => hw (by rw [h]; decide)
      rw [hs, beq_false_of_ne other]
      rfl
    · rcases L.step ag with l | ⟨hk, -, -⟩
      · exact L.lost_desk l _
      · rw [hs, ht] at hk
        cases hk

/-- A line that cannot be read starts with the same token on both sides, or the first reader is lost when
it has dropped the line. -/
theorem Paired.unreadable {f : Token → List String → ReadM σ γ} {g : Token → List String → ReadM τ δ}
    (h : ∀ a b x, P.token a b → a.kind = b.kind → a.value = b.value → Paired P R (f a x) (g b x)) :
    Paired P R (current >>= fun a => valuesUpTo "LINE_END" (· == .lineEnd) >>= f a)
      (current >>= fun b => valuesUpTo "LINE_END" (· == .lineEnd) >>= g b) := by
  have lost (a : Token) (x : List String) : P.StaysLost (f a x) := (h a a x (L.token_refl a) rfl rfl).lost
  refine ⟨fun s t ag => ?_, fun s l => ((dropLine L).lost.bind (lost s.current)) s l⟩
  show P.Match R ((valuesUpTo "LINE_END" (· == .lineEnd) >>= f s.current) s)
    ((valuesUpTo "LINE_END" (· == .lineEnd) >>= g t.current) t)
  rcases L.step ag with l | ⟨hk, hv, -⟩
  · by_cases same : s.current.kind = t.current.kind ∧ s.current.value = t.current.value
    · exact ((dropLine L).bindEq fun x => h _ _ x (L.near ag).current same.1 same.2).agree s t ag
    · -- the token is not the end of the line, so it is dropped
      have goes : (s.current.value == "LINE_END" || s.current.kind == .lineEnd) = false := by
        by_contra hgoes
        rw [Bool.not_eq_false, Bool.or_eq_true, beq_iff_eq, beq_iff_eq] at hgoes
        have word := L.word (L.near ag).current "LINE_END" (by decide)
        rcases L.kind (L.near ag).current with hk | ⟨hw, hs, -⟩
        · refine same ⟨hk, ?_⟩
          rcases hgoes with hv | hv
          · rw [hv, word.mp hv]
          · exact L.value (L.near ag).current hk (by rw [hv]; decide)
        · rcases hgoes with hv | hv
          · exact hw (by rw [hv]; decide)
          · rw [hs] at hv
            cases hv
      have cond : (do return !((← Read.valueIs "LINE_END") || (← current).kind == .lineEnd) :
          ReadM σ Bool) s = .ok true s := by
        show Result.ok (!(s.current.value == "LINE_END" || s.current.kind == .lineEnd)) s = _
        rw [goes]
        rfl
      have stays := Pairing.StaysLost.moveRounds
        (show P.StaysLost (do return !((← Read.valueIs "LINE_END") || (← current).kind == .lineEnd)) from
          fun _ l => l) (fun acc => (consumeOne L acc).lost) (s.ahead.length + 3)
      have dropped : P.lost (endState (valuesUpTo "LINE_END" (· == .lineEnd) s)) := by
        refine P.lost_after (fun _ => ?_) ?_
        · exact fun _ l => l
        · rw [whileMoving_first cond]
          exact P.lost_after (fun r => by cases r <;> [exact fun _ l => l; exact stays _ _]) (L.lost_desk l _)
      exact .of_lost (P.lost_after (lost _) dropped)
  · exact ((dropLine L).bindEq fun x => h _ _ x (L.near ag).current hk hv).agree s t ag

end lines

theorem Paired.leaveScopes (L : P.Moves v w) (indent : Option Nat) :
    Paired P Eq (leaveScopes v indent) (leaveScopes w indent) :=
  L.core.leaveScopes (k := 0) (.ask L (.same _) rfl) (fun _ => .note L ..) (fun n => .set_fields L
    (fun _ _ ag => L.level ag n) fun _ => ⟨rfl, rfl, rfl, rfl, rfl, List.suffix_rfl⟩) indent

/-! ## Lines in lock step -/

/-- What readers have to say of comments that find tokens of the same kinds. -/
structure Pairing.LockStep (P : Pairing σ τ) (v : Writer σ) (w : Writer τ) : Prop extends P.Moves v w where
  same : ∀ {t u}, P.token t u → t.kind = u.kind
  remark : ∀ text, Paired P Eq (Read.ask v (.comment text)) (Read.ask w (.comment text))

namespace Pairing.LockStep

variable (L : P.LockStep v w)

include L

theorem lines : P.logic.LineLaws v w where
  toCore := L.toMoves.core
  same := L.same
  pastMove h := (Paired.advance L.toMoves).bindEq fun _ => h
  ask q hq := by
    cases q with
    | comment text => exact L.remark text
    | _ => exact .ask L.toMoves (.same _) rfl
  leaveScopes := .leaveScopes L.toMoves

theorem laws : P.Laws v w where
  toMoves := L.toMoves
  endLine := L.lines.endLine (k := 0)
  headLine := L.lines.headLine (k := 0)
  closure := .get_bind L.toMoves fun _ _ _ => (Paired.note L.toMoves ..).bindEq fun _ =>
    (L.lines.expectKind (k := 0) _).bindEq fun _ => .pure rfl

end Pairing.LockStep

end GdScribe.Read
