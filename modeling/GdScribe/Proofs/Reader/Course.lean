import GdScribe.Proofs.Reader.Descent

/-!
# The course of a reader

What holds between the states of a reader before and after an action, whatever the action is. A course
is shown to be kept by the single moves of a reader; that expressions and statements keep it then
follows once and for all.

* `Goes`: what an action does from one state.
* `Course.Laws`: what a course has to say about the single moves and about a target. Where several
  moves belong together, as a new level and the scope that is opened for it, or a page and the text that
  is taken from it, the law is about all of them.

* `Course.logic`: a course as a logic, so that it is carried through expressions and statements.

Principal result: `RulesKeep.rules`.
-/

namespace GdScribe

/-- The requests with which the statements of a block go one level deeper. -/
def Request.deepens : Request → Bool
  | .openScope | .matchSubject _ => true
  | _ => false

abbrev Request.DefinesNone (q : Request) : Prop :=
  ∀ name base isTool isMain, q ≠ .defineClass name base isTool isMain

namespace Read

variable {σ α β : Type}

/-- How a reader may get from one state to another. -/
structure Course (σ : Type) where
  /-- By an action that ends well. -/
  ok : Reader σ → Reader σ → Prop
  /-- By an action that ends in a fault. -/
  fault : Fault → Reader σ → Reader σ → Prop

/-- What an action comes to is on a course. -/
def Course.Ends (C : Course σ) (s : Reader σ) : EStateM.Result Fault (Reader σ) α → Prop
  | .ok _ s' => C.ok s s'
  | .error e s' => C.fault e s s'

/-- An action never leaves a course. -/
def Keeps (C : Course σ) (x : ReadM σ α) : Prop := ∀ s, C.Ends s (x s)

/-- The ways of a course can be joined. -/
structure Course.Joins (C : Course σ) : Prop where
  refl : ∀ s, C.ok s s
  trans : ∀ {a b c}, C.ok a b → C.ok b c → C.ok a c
  fail : ∀ e s, e.ofReader = true → C.fault e s s
  trans_fault : ∀ {e a b c}, C.ok a b → C.fault e b c → C.fault e a c

/-- What a course has to say about the moves that no target takes part in. -/
structure Course.Moves (C : Course σ) : Prop extends C.Joins where
  next : ∀ s : Reader σ, C.ok s s.next
  log : ∀ (s : Reader σ) l, C.ok s { s with desk := { s.desk with log := l } }
  strings : ∀ (s : Reader σ) l, C.ok s { s with strings := l }
  inParens : ∀ (s : Reader σ) b, C.ok s { s with inParens := b }

/-- What a course has to say about the moves of a reader and about a target. -/
structure Course.Laws (C : Course σ) (w : Writer σ) : Prop extends C.Moves where
  ask : ∀ q, q.inBody = true → Keeps C (ask w q)
  onPage : ∀ {α : Type} {x : ReadM σ α}, Keeps C x → Keeps C (onPage w x)
  choiceHead : ∀ byJump subject, Keeps C (choiceHead w byJump subject)
  bracketed : ∀ {items}, Keeps C items → Keeps C (bracketed w items)
  deepen : ∀ q, q.deepens = true → Keeps C (deepen w q)
  leaveScopes : ∀ indent, Keeps C (leaveScopes w indent)
  learn : ∀ name type, Keeps C (learn name type)
  closure : ∀ k, Keeps C (note (.closure k))
  use : ∀ (s : Reader σ) name, C.ok s { s with history := .used (useOf s name) :: s.history }

instance {C : Course σ} {w : Writer σ} : CoeOut (C.Laws w) C.Moves := ⟨Course.Laws.toMoves⟩

/-! ## From one state -/

/-- From a state, an action ends well with `Q` or in a fault with `E`. -/
def Goes (x : ReadM σ α) (s : Reader σ) (Q : α → Reader σ → Prop)
    (E : Reader σ → Prop := fun _ => True) : Prop :=
  match x s with
  | .ok a s' => Q a s'
  | .error _ s' => E s'

namespace Goes

variable {x : ReadM σ α} {f : α → ReadM σ β} {s s' : Reader σ} {a : α} {E E' : Reader σ → Prop}

theorem of_eq {Q : α → Reader σ → Prop} (h : x s = .ok a s') (hQ : Q a s') : Goes x s Q E := by
  unfold Goes
  rw [h]
  exact hQ

variable {Q' : α → Reader σ → Prop} {Q : β → Reader σ → Prop}

theorem mono {Q : α → Reader σ → Prop} (h : Goes x s Q' E') (hQ : ∀ a s', Q' a s' → Q a s')
    (hE : ∀ s', E' s' → E s') : Goes x s Q E := by
  unfold Goes at h ⊢
  cases hx : x s <;> rw [hx] at h
  · exact hQ _ _ h
  · exact hE _ h

theorem and {Q : α → Reader σ → Prop} (h : Goes x s Q E) (h' : Goes x s Q' E') :
    Goes x s (fun a s' => Q a s' ∧ Q' a s') fun s' => E s' ∧ E' s' := by
  unfold Goes at h h' ⊢
  cases hx : x s <;> rw [hx] at h h' <;> exact ⟨h, h'⟩

/-- **Actions in a row**, from where the first one ends. -/
theorem bind (h : Goes x s Q' E) (hf : ∀ a s', Q' a s' → Goes (f a) s' Q E) : Goes (x >>= f) s Q E := by
  unfold Goes at h ⊢
  rw [bind_apply]
  cases hx : x s <;> rw [hx] at h
  · exact hf _ _ h
  · exact h

theorem bind_mono (h : Goes x s Q' E') (hE : ∀ s', E' s' → E s') (hf : ∀ a s', Q' a s' → Goes (f a) s' Q E) :
    Goes (x >>= f) s Q E := (h.mono (fun _ _ h => h) hE).bind hf

theorem bind_eq (h : x s = .ok a s') (hf : Goes (f a) s' Q E) : Goes (x >>= f) s Q E := by
  unfold Goes
  rw [bind_ok h]
  exact hf

theorem expect {f : Bool → ReadM σ β} (v : String)
    (ht : s.current.value = v → Goes (f true) s.next Q E) (hf : s.current.value ≠ v → Goes (f false) s Q E) :
    Goes (expect v >>= f) s Q E := by
  by_cases h : s.current.value = v
  · exact .bind_eq ((expect_apply v s).trans (if_pos h)) (ht h)
  · exact .bind_eq ((expect_apply v s).trans (if_neg h)) (hf h)

theorem ifExpect (v : String) {x y : ReadM σ β}
    (hx : s.current.value = v → Goes x s.next Q E) (hy : s.current.value ≠ v → Goes y s Q E) :
    Goes (Read.expect v >>= fun f => if f = true then x else y) s Q E :=
  .expect v hx hy

end Goes

variable {C : Course σ} {w : Writer σ}

theorem Keeps.goes {x : ReadM σ α} (h : Keeps C x) (s : Reader σ) :
    Goes x s (fun _ => C.ok s) fun s' => ∃ e, C.fault e s s' := by
  have hs := h s
  unfold Goes
  cases hx : x s <;> rw [hx] at hs
  · exact hs
  · exact ⟨_, hs⟩

section joins

variable (L : C.Joins)

include L

theorem Course.Joins.pure (a : α) : Keeps C (pure a) := L.refl

variable {x : ReadM σ α}

/-- **Actions in a row.** -/
theorem Course.Joins.bind {f : α → ReadM σ β} (hx : Keeps C x) (hf : ∀ a, Keeps C (f a)) : Keeps C (x >>= f) := by
  intro s
  have h := hx s
  rw [bind_apply]
  cases hxs : x s with
  | error e s' =>
    rw [hxs] at h
    exact h
  | ok a s' =>
    rw [hxs] at h
    have h' := hf a s'
    dsimp only
    cases hfs : f a s' with
    | ok b s'' =>
      rw [hfs] at h'
      exact L.trans h h'
    | error e s'' =>
      rw [hfs] at h'
      exact L.trans_fault h h'

/-- An action on a page of its own, for a course that does not look at pages. -/
theorem Course.Joins.onPage (ho : Keeps C (ask w .openPage)) (hx : Keeps C x)
    (ht : Keeps C (takePage w)) : Keeps C (onPage w x) :=
  L.bind ho fun _ => L.bind hx fun _ => L.bind ht L.pure

theorem Course.Joins.bracketed {items : ReadM σ Unit} (hi : Keeps C (ask w .indent))
    (hp : Keeps C (Read.onPage w items)) (hd : Keeps C (ask w .dedent)) : Keeps C (bracketed w items) :=
  L.bind hi fun _ => L.bind hp fun _ => L.bind hd L.pure

theorem Course.Joins.expect (hn : ∀ s : Reader σ, C.ok s s.next) (v : String) :
    Keeps C (expect v : ReadM σ Bool) := by
  intro s
  rw [expect_apply]
  split
  · exact hn s
  · exact L.refl s

theorem Course.Joins.choiceHead (hn : ∀ s : Reader σ, C.ok s s.next) {byJump : Bool} {subject : Expr}
    (hh : Keeps C (ask w (.matchHead byJump))) (he : Keeps C (ask w (.expr subject)))
    (hs : Keeps C (deepen w (.matchSubject byJump))) (ht : Keeps C (takePage w)) :
    Keeps C (choiceHead w byJump subject) := by
  have comparison : Keeps C (caseComparison w byJump) := by
    cases byJump with
    | true => exact L.pure _
    | false => exact ht
  exact L.bind hh fun _ => L.bind he fun _ => L.bind (L.expect hn _) fun _ => L.bind hs fun _ =>
    L.bind comparison L.pure

end joins

section moves

variable (L : C.Moves)

include L

theorem Keeps.pure (a : α) : Keeps C (pure a) := L.refl

theorem Keeps.throw {e : Fault} (h : e.ofReader = true) : Keeps C (throw e : ReadM σ α) :=
  fun s => L.fail e s h

variable {x y : ReadM σ α} {c : ReadM σ Bool} {body : β → ReadM σ (ForInStep β)}

theorem Keeps.bind {f : α → ReadM σ β} (hx : Keeps C x) (hf : ∀ a, Keeps C (f a)) :
    Keeps C (x >>= f) := L.toJoins.bind hx hf

omit L in
theorem Keeps.get_bind {f : Reader σ → ReadM σ β} (h : ∀ s, Keeps C (f s)) : Keeps C (get >>= f) := fun s => h s s

omit L in
theorem Keeps.ite {p : Prop} [Decidable p] (hx : Keeps C x) (hy : Keeps C y) : Keeps C (if p then x else y) := by
  split
  · exact hx
  · exact hy

theorem Keeps.advance : Keeps C (advance : ReadM σ Unit) := L.next

theorem Keeps.trace (line : String) : Keeps C (trace line : ReadM σ Unit) := fun s => L.log s _

theorem Keeps.print (line : String) : Keeps C (print line : ReadM σ Unit) := fun s => L.log s _

theorem Keeps.current : Keeps C (current : ReadM σ Token) := .get_bind fun _ => .pure L _

theorem Keeps.kindIs (k : TokenKind) : Keeps C (kindIs k : ReadM σ Bool) := .get_bind fun _ => .pure L _

theorem Keeps.valueIs (v : String) : Keeps C (valueIs v : ReadM σ Bool) := .get_bind fun _ => .pure L _

theorem Keeps.expect (v : String) : Keeps C (expect v : ReadM σ Bool) := L.toJoins.expect L.next v

theorem Keeps.expectKind (k : TokenKind) : Keeps C (expectKind k : ReadM σ Bool) :=
  .bind L (.kindIs L k) fun _ => .ite (.bind L (.advance L) fun _ => .pure L _) (.pure L _)

theorem Keeps.expectPair (v u : String) : Keeps C (expectPair v u : ReadM σ Bool) :=
  .bind L (.expect L v) fun _ => .ite (.expect L u) (.pure L _)

theorem Keeps.consume : Keeps C (consume : ReadM σ String) :=
  .get_bind fun _ => .bind L (.advance L) fun _ => .bind L (.trace L _) fun _ => .pure L _

theorem Keeps.consumeString : Keeps C (consumeString : ReadM σ String) :=
  .bind L (fun s => L.strings s _) fun _ => .consume L

theorem Keeps.roundsLeft : Keeps C (roundsLeft : ReadM σ Nat) := .get_bind fun _ => .pure L _

theorem Keeps.ifExpect (v : String) (hx : Keeps C x) (hy : Keeps C y) :
    Keeps C (Read.expect v >>= fun f => if f = true then x else y) :=
  .bind L (.expect L v) fun _ => .ite hx hy

theorem Keeps.ifKind (k : TokenKind) (hx : Keeps C x) (hy : Keeps C y) :
    Keeps C (Read.kindIs k >>= fun f => if f = true then x else y) :=
  .bind L (.kindIs L k) fun _ => .ite hx hy

theorem Keeps.skip (v : String) (hx : Keeps C x) : Keeps C (Read.expect v >>= fun _ => x) :=
  .bind L (.expect L v) fun _ => hx

/-! ## Repetition -/

/-- **Repetition.** By induction on the rounds that are left. -/
theorem Keeps.moveRounds (hc : Keeps C c) (hb : ∀ b, Keeps C (body b)) (n : Nat) :
    ∀ last b, Keeps C (moveRounds c body n last b) := by
  induction n with
  | zero => intro _ _; exact .throw L rfl
  | succ n ih =>
    intro last b
    refine .get_bind fun s => .ite (.pure L _) ?_
    refine .bind L hc fun _ => .ite ?_ (.pure L _)
    refine .get_bind fun s => .bind L (hb b) fun step => ?_
    cases step with
    | done b => exact .pure L _
    | yield b => exact ih _ b

theorem Keeps.whileMoving (hc : Keeps C c)
    (hb : ∀ b, Keeps C (body b)) (b : β) : Keeps C (whileMoving c body b) :=
  .bind L (.roundsLeft L) fun n => .moveRounds L hc hb n none b

theorem Keeps.expectRounds (v : String)
    (hb : ∀ b, Keeps C (body b)) (n : Nat) : ∀ b, Keeps C (expectRounds v body n b) := by
  induction n with
  | zero => intro _; exact .throw L rfl
  | succ n ih =>
    intro b
    refine .ifExpect L v (.bind L (hb b) fun step => ?_) (.pure L _)
    cases step with
    | done b => exact .pure L _
    | yield b => exact ih b

/-- Of two actions, the first one keeps to a course. -/
abbrev Course.logic (C : Course σ) : Logic σ σ where
  token := Eq
  text := Eq
  contents := Eq
  Holds _ _ _ x _ := Keeps C x

theorem Course.Moves.core : C.logic.Core where
  toComparable := .eq
  less h := h
  pure _ := .pure L _
  bind hx refl hf := .bind L hx fun a => hf a a (refl a)
  throw h _ := .throw L h
  get_bind h := .get_bind fun s => h s s .refl
  expect _ := .expect L _
  pastWord _ := .ifExpect L _
  consume := .consume L
  pastToken := .bind L (.consume L)
  whileMoving refl hc hf _ := .whileMoving L hc (fun a => hf a a (refl a)) _
  bounded {k _ _ _ _ _} hf _ h i := .bind L (.roundsLeft L) fun n => by
    induction n generalizing i with
    | zero => rw [hf]; exact .throw L rfl
    | succ n ih => exact h (n := n) (Nat.zero_le k) ih i

theorem Keeps.type : Keeps C (type : ReadM σ Ty) := L.core.type (k := 0)

theorem Keeps.typeAfter (v : String) : Keeps C (typeAfter v : ReadM σ Ty) := .ifExpect L v (.type L) (.pure L _)

end moves

/-! ## Between lines -/

section lines

variable (L : C.Laws w)

include L

theorem Keeps.bareName (name : String) : Keeps C (bareName name) := by
  intro s
  obtain ⟨a, h⟩ := bareName_apply name s
  rw [h]
  exact L.use s name

theorem Course.Laws.lines : C.logic.LineLaws w w where
  toCore := L.toMoves.core
  same := congrArg _
  pastMove h := .bind L (.advance L) fun _ => h
  ask := L.ask
  leaveScopes := L.leaveScopes

theorem Keeps.passLines (n : Nat) : ∀ p, Keeps C (passLines w n p) := by
  induction n with
  | zero => intro p; exact .throw L rfl
  | succ n ih => exact L.lines.passStep (k := 0) (n := n) ih

theorem Keeps.endLine : Keeps C (endLine w) := L.lines.endLine (k := 0)

theorem Keeps.enterClosure : Keeps C (enterClosure : ReadM σ Unit) :=
  .get_bind fun _ => .bind L (L.closure _) fun _ => .bind L (.expectKind L _) fun _ => .pure L _

end lines

/-! ## Expressions and statements -/

/-- Rules that keep a course. -/
abbrev RulesKeep (C : Course σ) (r : Rules σ) : Prop := RulesHold C.logic 0 r r

theorem Course.Laws.logic (L : C.Laws w) : C.logic.Laws w w where
  toCore := L.toMoves.core
  consumeString := .consumeString L
  lineOr h hf := .bind L (.expectKind L _) fun _ => .ite h (.bind L (.consume L) hf)
  bareName := .bareName L
  reportNot := .bind L (.current L) fun _ => .print L _
  setParens b s := L.inParens s b
  learn := L.learn
  closure := .enterClosure L
  ask _ hq := L.ask _ (Bool.and_eq_true_iff.mp hq).1
  awaits _ := L.ask _ rfl
  onPage := L.onPage
  bracketed := L.bracketed
  choiceHead _ _ := L.choiceHead _ _
  openScope := L.deepen _ rfl
  endLine := .endLine L

/-- **Expressions and blocks keep a course.** By induction on how deep the rules call each other. -/
theorem RulesKeep.rules (L : C.Laws w) (n : Nat) : RulesKeep C (rules w n) := by
  induction n with
  | zero =>
    have endless {α : Type} : Keeps C (throw .endless : ReadM σ α) := .throw L rfl
    exact ⟨endless, endless, endless, endless, fun _ _ => endless, fun _ => endless, endless⟩
  | succ n ih =>
    have G := L.logic
    exact ⟨ih.expressed G, ih.chosen G, ih.compared G, ih.summed G, ih.referred G, ih.followed G, ih.blocked G⟩

end Read

end GdScribe
