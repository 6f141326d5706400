import GdScribe.Proofs.Reader.Descent

/-!
# Two readers side by side

A relational logic for actions of a reader: two runs, for two targets or over two scripts, are
compared step by step.

* `Pairing`: what is compared: tokens, texts taken from pages, contents of string literals, and
  the states of the two readers. A first run can get `lost`: it has left the ground on which the
  two can be compared, and never comes back to it.
* `Paired`: two actions take readers that agree to readers that agree, with related results.

Principal results: `Paired.bind`, `Paired.ite` and `Pairing.Match.atDesk`, from which the actions of a reader
are paired one by one.
-/

namespace GdScribe

namespace Read

open EStateM (Result)

variable {σ τ α β γ δ : Type}

/-- How two readers are compared. -/
structure Pairing (σ τ : Type) where
  token : Token → Token → Prop
  /-- Texts that are taken from pages. -/
  text : String → String → Prop
  /-- Contents of string literals. -/
  contents : String → String → Prop
  table : ClassTable → ClassTable → Prop
  /-- How often the first reader has moved when the second one has moved so often. -/
  place : Nat → Nat
  agree : Reader σ → Reader τ → Prop
  /-- The first reader can no longer be compared. -/
  lost : Reader σ → Prop
  /-- The faults after which a run is compared with nothing. -/
  lax : Fault → Prop

/-- The outcomes of two actions that fit together. -/
def Pairing.Match (P : Pairing σ τ) (R : α → β → Prop) : Result Fault (Reader σ) α → Result Fault (Reader τ) β → Prop
  | .ok a s, .ok b t => P.lost s ∨ R a b ∧ P.agree s t
  | .error e s, .error f t => P.lost s ∨ P.lax e ∨ P.lax f ∨ e = f ∧ P.agree s t
  | .ok _ s, .error f _ => P.lost s ∨ P.lax f
  | .error e s, .ok _ _ => P.lost s ∨ P.lax e

/-- An action that leaves a lost reader lost. -/
def Pairing.StaysLost (P : Pairing σ τ) (x : ReadM σ α) : Prop := ∀ s, P.lost s → P.lost (endState (x s))

/-- Two actions that keep readers in agreement, and leave a lost one lost. -/
structure Paired (P : Pairing σ τ) (R : α → β → Prop) (x : ReadM σ α) (y : ReadM τ β) : Prop where
  agree : ∀ s t, P.agree s t → P.Match R (x s) (y t)
  lost : P.StaysLost x

variable {P : Pairing σ τ} {R : γ → δ → Prop} {Q : α → β → Prop}

theorem Pairing.Match.of_lost {x : Result Fault (Reader σ) α} {y : Result Fault (Reader τ) β}
    (h : P.lost (endState x)) : P.Match Q x y := by
  cases x <;> cases y <;> exact .inl h

/-- A run that ends in a fault that is not compared fits together with any other. -/
theorem Pairing.Match.lax_left {e : Fault} (he : P.lax e) {s : Reader σ}
    (y : Result Fault (Reader τ) β) : P.Match Q (.error e s) y := by
  cases y with
  | ok b t => exact .inr he
  | error f t => exact .inr (.inl he)

theorem Pairing.Match.lax_right {f : Fault} (hf : P.lax f) {t : Reader τ}
    (x : Result Fault (Reader σ) α) : P.Match Q x (.error f t) := by
  cases x with
  | ok a s => exact .inr hf
  | error e s => exact .inr (.inr (.inl hf))

/-- Actions at both desks, where no faults are compared. -/
theorem Pairing.Match.atDesk {x : DeskM σ α} {y : DeskM τ β} {s : Reader σ} {t : Reader τ} (lax : ∀ e, P.lax e)
    (hQ : ∀ a b, Q a b) (h : P.agree { s with desk := endState (x s.desk) } { t with desk := endState (y t.desk) }) :
    P.Match Q (atDesk x s) (atDesk y t) := by
  unfold Read.atDesk
  cases hx : x s.desk <;> cases hy : y t.desk <;> rw [hx, hy] at h
  · exact .inr ⟨hQ .., h⟩
  · exact .inr (lax _)
  · exact .inr (lax _)
  · exact .inr (.inl (lax _))

theorem Paired.pure {a : α} {b : β} (h : Q a b) : Paired P Q (pure a) (pure b) :=
  ⟨fun _ _ ag => .inr ⟨h, ag⟩, fun _ l => l⟩

theorem Paired.throw (e : Fault) : Paired P Q (throw e) (throw e) :=
  ⟨fun _ _ ag => .inr (.inr (.inr ⟨rfl, ag⟩)), fun _ l => l⟩

variable {x : ReadM σ α} {f : α → ReadM σ γ} {c : Prop} {y : ReadM τ β} {g : β → ReadM τ δ}

/-- A reader that is lost after the first of actions in a row stays so. -/
theorem Pairing.lost_after (hf : ∀ a, P.StaysLost (f a))
    {s : Reader σ} (l' : P.lost (endState (x s))) : P.lost (endState ((x >>= f) s)) := by
  rw [bind_apply]
  cases hxs : x s <;> rw [hxs] at l'
  · exact hf _ _ l'
  · exact l'

theorem Pairing.StaysLost.bind (hx : P.StaysLost x) (hf : ∀ a, P.StaysLost (f a)) : P.StaysLost (x >>= f) :=
  fun s l => P.lost_after hf (hx s l)

theorem Pairing.StaysLost.get_bind {f : Reader σ → ReadM σ α} (h : ∀ s, P.StaysLost (f s)) :
    P.StaysLost (get >>= f) := fun s l => h s s l

theorem Pairing.StaysLost.ite [Decidable c] {y : ReadM σ α} (hx : P.StaysLost x)
    (hy : P.StaysLost y) : P.StaysLost (if c then x else y) := by
  split
  · exact hx
  · exact hy

theorem Pairing.Match.bind {s : Reader σ} {t : Reader τ} (m : P.Match Q (x s) (y t)) (hl : ∀ a, P.StaysLost (f a))
    (hf : ∀ a b, Q a b → Paired P R (f a) (g b)) : P.Match R ((x >>= f) s) ((y >>= g) t) := by
  rw [bind_apply, bind_apply]
  cases hxs : x s <;> cases hyt : y t <;> rw [hxs, hyt] at m
  · rcases m with l | ⟨q, ag'⟩
    · exact .of_lost (hl _ _ l)
    · exact (hf _ _ q).agree _ _ ag'
  · rcases m with l | l
    · exact .of_lost (hl _ _ l)
    · exact .lax_right l _
  · rcases m with l | l
    · exact .of_lost l
    · exact .lax_left l _
  · exact m

/-- **Actions in a row.** After a lost first action the second one is asked only to stay lost, for
which some related result of the other side is needed. -/
theorem Paired.bind (hx : Paired P Q x y) (total : ∀ a, ∃ b, Q a b)
    (hf : ∀ a b, Q a b → Paired P R (f a) (g b)) : Paired P R (x >>= f) (y >>= g) := by
  have hl (a : α) : P.StaysLost (f a) := have ⟨b, q⟩ := total a
    (hf a b q).lost
  exact ⟨fun s t ag => (hx.agree s t ag).bind hl hf, hx.lost.bind hl⟩

theorem Paired.bindEq {y : ReadM τ α} {g : α → ReadM τ δ}
    (hx : Paired P Eq x y) (hf : ∀ a, Paired P R (f a) (g a)) : Paired P R (x >>= f) (y >>= g) :=
  hx.bind (fun a => ⟨a, rfl⟩) fun a _ h => h ▸ hf a

variable {x' : ReadM σ α} {y' : ReadM τ β}

theorem Paired.ite [Decidable c] (h : c → Paired P Q x y) (h' : ¬ c → Paired P Q x' y') :
    Paired P Q (if c then x else x') (if c then y else y') := by
  by_cases hc : c
  · rw [if_pos hc, if_pos hc]
    exact h hc
  · rw [if_neg hc, if_neg hc]
    exact h' hc

theorem Paired.change {f : Reader σ → Reader σ} {g : Reader τ → Reader τ}
    (h : ∀ s t, P.agree s t → P.agree (f s) (g t)) (hl : ∀ s, P.lost s → P.lost (f s)) :
    Paired P Eq (modify f : ReadM σ PUnit) (modify g : ReadM τ PUnit) :=
  ⟨fun s t ag => .inr ⟨rfl, h s t ag⟩, hl⟩

/-- What a pairing has to say about the single moves of a reader and about the two targets. -/
structure Pairing.Moves (P : Pairing σ τ) (v : Writer σ) (w : Writer τ) : Prop extends
    Comparable P.token P.text P.contents where
  endless : P.lax .endless
  place : Function.Injective P.place
  alike : ∀ {c d}, P.table c d → c.Alike d
  declare : ∀ {c d}, P.table c d → ∀ name base, P.table (c.declare name base) (d.declare name base)
  update : ∀ {c d}, P.table c d → ∀ name f, P.table (c.update name f) (d.update name f)
  near : ∀ {s t}, P.agree s t → Near P.token P.table s t
  near_total : ∀ s : Reader σ, ∃ t : Reader τ, Near P.token P.table s t
  moves : ∀ {s t}, P.agree s t → s.moves = P.place t.moves
  /-- A token that is the same on both sides is passed. Another one must be passed where it is
  expected, or the first reader is lost. -/
  step : ∀ {s t}, P.agree s t → P.lost s.next ∨
    s.current.kind = t.current.kind ∧ s.current.value = t.current.value ∧ P.agree s.next t.next
  string : ∀ {s t}, P.agree s t → P.Match P.contents (consumeString s) (consumeString t)
  trace : ∀ {s t}, P.agree s t → ∀ x, P.agree { s with desk := s.desk.note (.readStep x) }
    { t with desk := t.desk.note (.readStep x) }
  reportNot : ∀ {s t}, P.agree s t → P.Match Eq (reportNot s) (reportNot t)
  level : ∀ {s t}, P.agree s t → ∀ n, P.agree { s with level := n } { t with level := n }
  isTool : ∀ {s t}, P.agree s t → ∀ b, P.agree { s with isTool := b } { t with isTool := b }
  classes : ∀ {s t}, P.agree s t → ∀ c, P.agree { s with classes := c } { t with classes := c }
  locals : ∀ {s t}, P.agree s t → ∀ l, P.agree { s with locals := l } { t with locals := l }
  inParens : ∀ {s t}, P.agree s t → ∀ b, P.agree { s with inParens := b } { t with inParens := b }
  table : ∀ {s t}, P.agree s t → ∀ c d, P.table c d → P.agree { s with desk := { s.desk with classes := c } }
    { t with desk := { t.desk with classes := d } }
  /-- Histories are not compared. -/
  history : ∀ {s t}, P.agree s t → ∀ h k, P.agree { s with history := h } { t with history := k }
  serve : ∀ {s t q q'}, P.agree s t → RequestAlike P.text P.contents q q' → q.isRemark = false →
    P.Match Eq (ask v q s) (ask w q' t)
  take : ∀ {s t}, P.agree s t → P.Match P.text (takePage v s) (takePage w t)
  report : ∀ {s t a b}, P.agree s t → P.token a b → a.kind = b.kind → a.value = b.value → ∀ dropped,
    P.Match Eq (report v (panicMessage dropped a) s) (report w (panicMessage dropped b) t)
  awaits : ∀ {s t a b}, P.agree s t → P.text a b → P.Match Eq (ask v (.await (awaited a).1 (awaited a).2) s)
      (ask w (.await (awaited b).1 (awaited b).2) t)
  lost_next : ∀ s, P.lost s → P.lost s.next
  lost_string : P.StaysLost consumeString
  lost_same : ∀ {s s' : Reader σ}, P.lost s → s'.current = s.current → s'.ahead = s.ahead →
    s'.passed = s.passed → s'.strings = s.strings → s'.asked = s.asked → s.history <:+ s'.history →
    P.lost s'
  lost_ask : ∀ s q, q.isRemark = false → P.lost s → P.lost { s with asked := q :: s.asked }

/-- What a pairing has to say about the places where lines end, too. -/
structure Pairing.Laws (P : Pairing σ τ) (v : Writer σ) (w : Writer τ) : Prop extends P.Moves v w where
  endLine : Paired P Eq (Read.endLine v) (Read.endLine w)
  /-- The line end after the head of a property, before which a comment may stand. -/
  headLine : Paired P Eq (do commentInLine v; expectKind .lineEnd) (do commentInLine w; expectKind .lineEnd)
  /-- The line end after the head of a function without a name. -/
  closure : Paired P Eq enterClosure enterClosure

end Read

end GdScribe
