import GdScribe.Proofs.Reader.PairedMoves

/-!
# The scripts of two readers

A pairing is a logic: what it says of the moves of two readers, it says of expressions, statements and
members. Classes and whole scripts are paired from these.

Principal results: `RulesPaired.rules` and `Paired.script`.
-/

namespace GdScribe.Read

variable {σ τ α β γ δ : Type} {P : Pairing σ τ} {v : Writer σ} {w : Writer τ}
variable {R : γ → δ → Prop}

/-- Rules that are paired one by one. -/
abbrev RulesPaired (P : Pairing σ τ) : Rules σ → Rules τ → Prop := RulesHold P.logic 0

section moves

variable (L : P.Moves v w)

include L

theorem Paired.bareName (name : String) :
    Paired P (TypedAlike P.logic) (bareName name) (bareName name) := by
  refine .get_bind L fun s t n => ?_
  rw [(n.alike L).nameType, (n.alike L).nameRole]
  refine (note L ..).bindEq fun _ => ?_
  cases nameRole t name <;> exact .pure ⟨rfl, .name ..⟩

/-- Past a line end, or another token. A comment on the first side is taken for a name, where there is the end
of a line on the other side. -/
theorem Paired.lineOr {x : ReadM σ γ} {y : ReadM τ δ} {f : String → ReadM σ γ} {g : String → ReadM τ δ}
    (h : Paired P R x y) (hf : ∀ v, Paired P R (f v) (g v)) :
    Paired P R (expectKind .lineEnd >>= fun b => if b = true then x else Read.consume >>= f)
      (expectKind .lineEnd >>= fun b => if b = true then y else Read.consume >>= g) := by
  have ended := (advance L).bindEq fun _ => h
  have named := (consume L).bindEq hf
  refine ⟨fun s t ag => ?_, fun s l => ?_⟩
  · rw [bind_apply, bind_apply, expectKind_apply, expectKind_apply]
    rcases L.kind (L.near ag).current with hk | ⟨-, hs, ht⟩
    · rw [hk]
      by_cases hl : t.current.kind = .lineEnd
      · rw [if_pos hl, if_pos hl]
        exact ended.agree s t ag
      · rw [if_neg hl, if_neg hl]
        exact named.agree s t ag
    · rw [if_neg (by rw [hs]; decide)]
      refine .of_lost (P.lost_after (fun n => (hf n).lost) ?_)
      rcases L.step ag with l | ⟨hk, -, -⟩
      · exact L.lost_desk l _
      · rw [hs, ht] at hk
        cases hk
  · rw [bind_apply, expectKind_apply]
    by_cases hl : s.current.kind = .lineEnd
    · rw [if_pos hl]
      exact ended.lost s l
    · rw [if_neg hl]
      exact named.lost s l

theorem Paired.setLevel (f : Nat → Nat) : Paired P Eq (modify fun s => { s with level := f s.level } : ReadM σ PUnit)
      (modify fun t => { t with level := f t.level }) :=
  .set_fields L (fun s t ag => by
    have h := L.level ag (f t.level)
    rw [← (L.near ag).level] at h ⊢
    exact h) fun _ => ⟨rfl, rfl, rfl, rfl, rfl, List.suffix_rfl⟩

theorem Paired.noteLevel (f : Nat → Nat) (m : Reader σ → Note) (n : Reader τ → Note) : Paired P Eq
      (modify fun s => { s with level := f s.level, history := m s :: s.history } : ReadM σ PUnit)
      (modify fun t => { t with level := f t.level, history := n t :: t.history }) :=
  .set_fields L (fun s t ag => by
    have h := L.history (L.level ag (f t.level)) (m s :: s.history) (n t :: t.history)
    rw [← (L.near ag).level] at h ⊢
    exact h) fun _ => ⟨rfl, rfl, rfl, rfl, rfl, List.suffix_cons ..⟩

theorem Paired.goDeeper : Paired P Eq (goDeeper : ReadM σ Unit) goDeeper := .noteLevel L (· + 1) ..

theorem Paired.deepen {q q' : Request} (h : RequestAlike P.text P.contents q q')
    (hq : q.isRemark = false) : Paired P Eq (deepen v q) (deepen w q') :=
  (goDeeper L).bindEq fun _ => (ask L h hq).bindEq fun _ =>
    .get_bind L fun _ _ n => .pure n.level

theorem Paired.resume (level : Nat) : Paired P Eq (resume level) (resume level) :=
  .noteLevel L (fun _ => level) ..

theorem Paired.resuming {x : ReadM σ Unit} {y : ReadM τ Unit} (h : Paired P Eq x y) :
    Paired P Eq (resuming x) (resuming y) := by
  refine .get_bind L fun s t n => ?_
  rw [n.level]
  exact h.bindEq fun _ => .resume L t.level

theorem Paired.learn (name : String) (type : Ty) : Paired P Eq (learn name type) (learn name type) :=
  .set_fields L (fun s t ag => by
    have h := L.history (L.locals ag (t.locals.put name type)) (.learned name type :: s.history)
      (.learned name type :: t.history)
    rw [← (L.near ag).locals] at h ⊢
    exact h) fun _ => ⟨rfl, rfl, rfl, rfl, rfl, List.suffix_cons ..⟩

theorem Paired.updateClass (f : ClassInfo → ClassInfo) : Paired P Eq (modify fun s => s.updateClass f : ReadM σ PUnit)
      (modify fun t => t.updateClass f) :=
  .set_fields L (fun s t ag => by
    have n := L.near ag
    unfold Reader.updateClass
    rw [n.className]
    exact L.table ag _ _ (L.update n.table _ f)) fun _ => ⟨rfl, rfl, rfl, rfl, rfl, List.suffix_rfl⟩

theorem Paired.record (e : ClassEntry) : Paired P Eq (record e) (record e) :=
  .get_bind L fun _ _ _ => (note L ..).bindEq fun _ => .updateClass L e.put

end moves

section laws

variable (L : P.Laws v w)

include L

theorem Pairing.Laws.putMethod {m m' : Method} (h : MethodAlike P.text P.contents m m') :
    Paired P Eq (putMethod v m) (putMethod w m') := by
  unfold Read.putMethod
  rw [h.name, h.returns, h.static]
  refine (Paired.record L.1 _).bindEq fun _ => .get_bind L.1 fun s t n => ?_
  rw [(n.alike L.1).parentClass]
  exact .ask L.1 (.method { h with name := rfl, returns := rfl, static := rfl, override := rfl }) rfl

theorem Pairing.Laws.members : P.logic.MemberLaws v w where
  toCore := L.core
  consumeString := .consumeString L.1
  lineOr := .lineOr L.1
  bareName := .bareName L.1
  reportNot := ⟨fun _ _ ag => L.reportNot ag, fun _ l => L.lost_desk l _⟩
  setParens b := .set_fields L.1 (fun _ _ ag => L.inParens ag b) fun _ => ⟨rfl, rfl, rfl, rfl, rfl, List.suffix_rfl⟩
  learn := .learn L.1
  closure := L.closure
  ask h hq := .ask L.1 h (by simpa using (Bool.and_eq_true_iff.mp hq).2)
  awaits hc := ⟨fun _ _ ag => L.awaits ag hc, L.lost_asked _ rfl⟩
  onPage := .onPage L.1 fun _ => rfl
  bracketed h := (Paired.ask L.1 (.same _) rfl).bindEq fun _ => (Paired.onPage L.1 (fun _ => rfl) h).bind
    (fun a => ⟨a, rfl, L.text_refl a.2⟩) fun _ _ h => (Paired.ask L.1 (.same _) rfl).bindEq fun _ => .pure h.2
  choiceHead byJump he := by
    have comparison : Paired P P.text (caseComparison v byJump) (caseComparison w byJump) :=
      .ite (fun _ => .pure (L.text_refl _)) fun _ => .takePage L.1
    refine (Paired.ask L.1 (.same _) rfl).bindEq fun _ => (Paired.ask L.1 (.expr he) rfl).bindEq fun _ => ?_
    refine (Paired.expect L.1 rfl).bindEq fun _ => (Paired.deepen L.1 (.same _) rfl).bindEq fun _ => ?_
    exact comparison.bind (fun a => ⟨a, L.text_refl a⟩) fun _ _ h => .pure ⟨rfl, h⟩
  openScope := .deepen L.1 (.same _) rfl
  endLine := L.endLine
  askMember {_ q _} h hq := .ask L.1 h (by cases q <;> first | rfl | cases hq)
  headLine := L.headLine
  withAccessors hp h := (Paired.deepen L.1 (.property true hp) rfl).bindEq fun _ => h.bind
    (fun as => ⟨as, List.forall₂_same.mpr fun a _ => .refl L.text_refl a⟩) fun _ _ hs =>
    .ask L.1 (.endProperty hp hs) rfl
  resuming := .resuming L.1
  record e _ := .record L.1 e
  putMethod := L.putMethod

/-- **The rules of two readers.** By induction on how deep they call each other. -/
theorem RulesPaired.rules (n : Nat) : ∀ m, RulesPaired P (rules v n) (rules w m) := by
  have M := L.members.toLaws
  induction n with
  | zero =>
    have endless {α β : Type} {Q : α → β → Prop} (y : ReadM τ β) := Paired.endlessFirst L.1 (Q := Q) y
    exact fun _ => ⟨endless _, endless _, endless _, endless _, fun _ _ => endless _, fun _ => endless _, endless _⟩
  | succ n ih =>
    have next (m : Nat) : RulesPaired P (Read.rules v (n + 1)) (Read.rules w (m + 1)) :=
      ⟨(ih m).expressed M, (ih m).chosen M, (ih m).compared M, (ih m).summed M, (ih m).referred M,
        (ih m).followed M, (ih m).blocked M⟩
    intro m
    cases m with
    | zero =>
      have H := next 0
      exact ⟨.endless L.1 H.expression.lost, .endless L.1 H.ternary.lost, .endless L.1 H.boolean.lost,
        .endless L.1 H.sum.lost, fun t b => .endless L.1 (H.reference t b).lost,
        fun t => .endless L.1 (H.follow t).lost, .endless L.1 H.block.lost⟩
    | succ m => exact next m

end laws

/-! ## Classes and scripts -/

section scripts

variable (L : P.Laws v w) {r : Rules σ} {r' : Rules τ} (H : RulesPaired P r r')

include L

theorem Paired.withClassName {f : String → ReadM σ γ} {g : String → ReadM τ δ} (h : ∀ c, Paired P R (f c) (g c)) :
    Paired P R (get >>= fun s => f s.className) (get >>= fun t => g t.className) :=
  .get_bind L.1 fun s t n => by
    rw [n.className]
    exact h _

theorem Paired.announceClass : Paired P Eq (announceClass v) (announceClass w) :=
  .withClassName L fun c => .ask L.1 (.same (.enterClass c)) rfl

theorem Paired.startClass (name base : String) (isMain : Bool) :
    Paired P Eq (startClass v name base isMain) (startClass w name base isMain) := by
  have enter : Paired P Eq (modify fun s => { s with
        classes := name :: s.classes
        desk := { s.desk with classes := s.desk.classes.declare name base } } : ReadM σ PUnit)
      (modify fun t => { t with
        classes := name :: t.classes
        desk := { t.desk with classes := t.desk.classes.declare name base } }) :=
    .set_fields L.1 (fun s t ag => by
      have n := L.near ag
      have h := L.classes (L.table ag _ _ (L.declare n.table name base)) (name :: t.classes)
      rw [← n.classes] at h ⊢
      exact h) fun _ => ⟨rfl, rfl, rfl, rfl, rfl, List.suffix_rfl⟩
  refine (note L.1 ..).bindEq fun _ => enter.bindEq fun _ => (announceClass L).bindEq fun _ =>
    .get_bind L.1 fun s t n => ?_
  rw [n.isTool]
  exact .ask L.1 (.same _) rfl

theorem Paired.endClass : Paired P Eq (endClass v) (endClass w) := by
  have leave : Paired P Eq (modify fun s => { s with classes := s.enclosing } : ReadM σ PUnit)
      (modify fun t => { t with classes := t.enclosing }) :=
    .set_fields L.1 (fun s t ag => by
      have h := L.classes ag t.enclosing
      unfold Reader.enclosing at h ⊢
      rw [← (L.near ag).classes] at h ⊢
      exact h) fun _ => ⟨rfl, rfl, rfl, rfl, rfl, List.suffix_rfl⟩
  refine .withClassName L fun c => (ask L.1 (.same (.endClass c)) rfl).bindEq fun _ => ?_
  exact (note L.1 ..).bindEq fun _ => leave.bindEq fun _ => .announceClass L

variable {inner : ReadM σ Unit} {inner' : ReadM τ Unit}

theorem Paired.innerClass (hi : Paired P Eq inner inner') :
    Paired P Eq (innerClass v inner) (innerClass w inner') :=
  have named := L.core.ifExpect (k := 0) (show Tested "extends" from rfl) L.core.consume (L.core.pure rfl)
  (consume L.1).bindEq fun _ => named.bindEq fun _ => (startClass L ..).bindEq fun _ =>
    (expect L.1 rfl).bindEq fun _ => (goDeeper L.1).bindEq fun _ => hi.bindEq fun _ => .endClass L

include H

theorem RulesPaired.recover : Paired P Eq (recover v r) (recover w r') := by
  refine .unreadable L.1 fun a b dropped hab hk hv => .consumeKind L.1 fun stop stop' value hs => ?_
  have level : Paired P Eq (levelOf stop.kind value) (levelOf stop'.kind value) := by
    rw [hs]
    exact .ite (fun _ => .pure rfl) fun _ => .throw _
  have noRemark (m : String) : (Request.comment (m ++ "\n")).isRemark = false := by
    simp [Request.isRemark]
  have reported : Paired P Eq (report v (panicMessage dropped a)) (report w (panicMessage dropped b)) :=
    ⟨fun _ _ ag => L.report ag hab hk hv dropped, (L.lost_asked _ (noRemark _)).bind fun _ _ l => L.lost_desk l _⟩
  refine level.bindEq fun level => (Paired.note L.1 ..).bindEq fun _ => reported.bindEq fun _ => ?_
  refine (Paired.setLevel L.1 fun _ => level - 1).bindEq fun _ => ?_
  exact (H.blocked L.members.toLaws).bindEq fun _ => .pure rfl

theorem RulesPaired.scripts : P.logic.ScriptLaws 0 v w r r' where
  toCore := L.core
  item static _ h := L.core.ifExpect rfl (.innerClass L h) (H.plainItem L.members static)
  announced h := .get_bind L.1 fun _ _ _ => (Paired.note L.1 ..).bindEq fun _ => h
  note n _ := .note L.1 n n
  trace := .trace L.1
  endLine := L.endLine
  recover := H.recover L
  isTool b := .set_fields L.1 (fun _ _ ag => L.isTool ag b) fun _ => ⟨rfl, rfl, rfl, rfl, rfl, List.suffix_rfl⟩
  startScript name base := .startClass L name base true
  endScript := .ask L.1 (.same _) rfl

end scripts

/-- **Scripts.** Two readers that agree before a script agree after it. -/
theorem Paired.script (L : P.Laws v w) (n m : Nat) (name : String) :
    Paired P Eq (script v (rules v n) name) (script w (rules w m) name) :=
  ((RulesPaired.rules L n m).scripts L).script name

end GdScribe.Read
