import GdScribe.Proofs.Reader.Course

/-!
# The course of a reader through a script

Classes and scripts keep every course that their parts keep.

Principal results: `Course.WholeLaws.logic` and `Keeps.script` — classes and scripts keep a course with
these laws; `run_of_invariant` — what holds at the start of a run holds at its end.
-/

namespace GdScribe

/-- The notes of what happens without a change of a table. -/
def Note.isPlain : Note → Bool
  | .script _ _ | .opened _ _ | .recorded _ _ | .learned _ _ | .used _ => false
  | _ => true

namespace Read

variable {σ α β : Type}

/-- What a course has to say about the members of a class, besides what stands in their bodies. -/
structure Course.MemberLaws (C : Course σ) (w : Writer σ) : Prop extends C.Laws w where
  askMember : ∀ q, q.inClass = true → Keeps C (Read.ask w q)
  withAccessors : ∀ p {x}, Keeps C x → Keeps C (withAccessors w p x)
  resuming : ∀ {x}, Keeps C x → Keeps C (resuming x)
  record : ∀ e, (∀ name returns, e ≠ .method name returns) → Keeps C (record e)
  putMethod : ∀ m, Keeps C (putMethod w m)

/-- What a course has to say about the moves between members. An inner class is read after the word
that announces it. -/
structure Course.ClassLaws (C : Course σ) (w : Writer σ) : Prop extends C.MemberLaws w where
  level : ∀ (s : Reader σ) n, C.ok s { s with level := n }
  note : ∀ n, n.isMark = true → Keeps C (note n)
  innerClass : ∀ {inner}, Keeps C inner → ∀ s : Reader σ, s.current.value = "class" →
    C.Ends s (innerClass w inner s.next)

/-- What a course has to say about members as wholes, with the moves between them. -/
structure Course.WholeLaws (C : Course σ) (w : Writer σ) (r : Rules σ) : Prop extends C.Moves where
  plainItem : ∀ static, Keeps C (plainItem w r static)
  innerClass : ∀ {inner}, Keeps C inner → ∀ s : Reader σ, s.current.value = "class" →
    C.Ends s (innerClass w inner s.next)
  level : ∀ (s : Reader σ) n, C.ok s { s with level := n }
  note : ∀ n, n.isMark = true → Keeps C (note n)
  endLine : Keeps C (endLine w)
  comment : ∀ text, Keeps C (Read.ask w (.comment text))
  block : Keeps C (block w r)

/-- What a course has to say about the start and the end of a script. -/
structure Course.ScriptLaws (C : Course σ) (w : Writer σ) : Prop extends C.ClassLaws w where
  isTool : ∀ (s : Reader σ) b, C.ok s { s with isTool := b }
  startScript : ∀ name base, Keeps C (startClass w name base true)
  endScript : Keeps C (Read.ask w .endScript)

variable {C : Course σ} {w : Writer σ}

theorem Course.Joins.putMethod (J : C.Joins) (hr : ∀ e, Keeps C (record e))
    (ha : ∀ m, Keeps C (ask w (.method m))) (m : Method) : Keeps C (putMethod w m) :=
  J.bind (hr _) fun _ => .get_bind fun _ => ha _

section

variable (L : C.Laws w)

include L

theorem Keeps.nameAfter (word default : String) : Keeps C (nameAfter word default : ReadM σ String) :=
  .ifExpect L _ (.consume L) (.pure L _)

theorem Keeps.lineName (word default : String) : Keeps C (lineName w word default) :=
  .ifExpect L _ (.bind L (.consume L) fun _ => .bind L (.endLine L) fun _ => .pure L _) (.pure L _)

end

theorem Course.MemberLaws.logic (L : C.MemberLaws w) : C.logic.MemberLaws w w where
  toLaws := L.toLaws.logic
  askMember _ := L.askMember _
  headLine := L.lines.headLine
  withAccessors _ := L.withAccessors _
  resuming := L.resuming
  record := L.record
  putMethod _ := L.putMethod _

section classes

theorem Course.ClassLaws.whole (L : C.ClassLaws w) {r : Rules σ} (H : RulesKeep C r) : C.WholeLaws w r where
  toMoves := L.toMoves
  plainItem := H.plainItem L.toMemberLaws.logic
  innerClass := L.innerClass
  level := L.level
  note := L.note
  endLine := .endLine L.toLaws
  comment _ := L.ask _ rfl
  block := H.blocked L.toLaws.logic

namespace Course.WholeLaws

variable {r : Rules σ} (L : C.WholeLaws w r)

include L

variable {inner : ReadM σ Unit}

theorem item (static : Bool) (hi : Keeps C inner) : Keeps C (item w r static inner) := by
  intro s
  unfold Read.item
  by_cases hv : s.current.value = "class"
  · rw [bind_ok ((expect_apply "class" s).trans (if_pos hv))]
    exact L.innerClass hi s hv
  · rw [bind_ok ((expect_apply "class" s).trans (if_neg hv))]
    exact L.plainItem static s

theorem recover : Keeps C (recover w r) := by
  have L' := L.toMoves
  refine .bind L' (.current L') fun t => .bind L' (L'.core.valuesUpTo (k := 0) rfl fun h => by rw [h]) fun dropped => ?_
  refine .bind L' (.current L') fun t' => .bind L' (.consume L') fun v =>
    .bind L' (L'.core.levelOf (k := 0) _ v) fun n => ?_
  refine .bind L' (L.note _ rfl) fun _ => .bind L' (.bind L' (L.comment _) fun _ => .print L' _) fun _ => ?_
  exact .bind L' (fun s => L.level s _) fun _ => .bind L' L.block fun _ => .pure L' _

theorem logic : C.logic.WholeLaws 0 w w r r where
  toCore := L.toMoves.core
  item static _ := L.item static
  announced h := .get_bind fun _ => .bind L.toMoves (L.note _ rfl) fun _ => h
  note := L.note
  trace := .trace L.toMoves
  endLine := L.endLine
  recover := L.recover

theorem classBodyWithin (n : Nat) : Keeps C (classBodyWithin w r n) := by
  induction n with
  | zero => exact .throw L.toMoves rfl
  | succ n ih => exact L.logic.classStep (n := n) (Nat.le_refl 0) ih

end Course.WholeLaws

end classes

theorem Keeps.scriptBody (L : C.ClassLaws w) (n : Nat) : Keeps C (scriptBody w (rules w n)) :=
  (L.whole (.rules L.toLaws n)).logic.scriptBody

/-- What the lines before the first member say: the name of the script's own class, and its base. -/
def headerNames (w : Writer σ) (scriptName : String) : ReadM σ (String × String) := do
  note (.line 0)
  endLine w
  let isTool ← expectPair "@" "tool"
  modify fun s => { s with isTool := isTool }
  endLine w
  let name ← lineName w "class_name" scriptName
  let base ← lineName w "extends" "Object"
  let name ← nameAfter "class_name" name
  return (name, base)

theorem header_eq (w : Writer σ) (scriptName : String) : header w scriptName = (do
      let names ← headerNames w scriptName
      startClass w names.1 names.2 true
      endLine w) := by
  simp only [header, headerNames, bind_assoc, pure_bind]

theorem Keeps.headerNames (L : C.Laws w) (hn : Keeps C (note (.line 0)))
    (ht : ∀ (s : Reader σ) b, C.ok s { s with isTool := b }) (name : String) :
    Keeps C (headerNames w name) := by
  refine .bind L hn fun _ => .bind L (.endLine L) fun _ => ?_
  refine .bind L (.expectPair L _ _) fun isTool => .bind L (fun s => ht s _) fun _ => ?_
  refine .bind L (.endLine L) fun _ => .bind L (.lineName L _ _) fun _ => ?_
  exact .bind L (.lineName L _ _) fun _ => .bind L (.nameAfter L _ _) fun _ => .pure L _

/-- **Scripts keep a course.** -/
theorem Keeps.script (L : C.ScriptLaws w) (n : Nat) (name : String) :
    Keeps C (script w (rules w n) name) :=
  Logic.ScriptLaws.script { (L.whole (.rules L.toLaws n)).logic with
    isTool := fun b s => L.isTool s b
    startScript := L.startScript
    endScript := L.endScript } name

/-! ## Courses that look at no page -/

/-- What a course that looks at no page has to say about single moves. -/
structure Course.Steps (C : Course σ) (w : Writer σ) : Prop extends C.Moves where
  level : ∀ (s : Reader σ) n, C.ok s { s with level := n }
  ask : ∀ q, q.inBlock = true → Keeps C (Read.ask w q)
  takePage : Keeps C (Read.takePage w)
  note : ∀ n, n.isPlain = true → Keeps C (Read.note n)
  learn : ∀ name type, Keeps C (learn name type)
  use : ∀ (s : Reader σ) name, C.ok s { s with history := .used (useOf s name) :: s.history }

variable {inner : ReadM σ Unit} {q : Request}

namespace Course.Steps

variable (H : C.Steps w)

include H

theorem goDeeper : Keeps C (goDeeper : ReadM σ Unit) :=
  fun s => H.trans (H.level s (s.level + 1)) (H.note .deeper rfl _)

theorem deepen (hq : Keeps C (Read.ask w q)) : Keeps C (deepen w q) :=
  H.bind H.goDeeper fun _ => H.bind hq fun _ => .get_bind fun _ => H.pure _

theorem onPage {x : ReadM σ α} (h : Keeps C x) : Keeps C (onPage w x) :=
  H.toJoins.onPage (H.ask _ rfl) h H.takePage

theorem laws : C.Laws w where
  toMoves := H.toMoves
  ask q hq := H.ask q (by cases q <;> first | rfl | cases hq)
  onPage := H.onPage
  choiceHead _ _ := H.toJoins.choiceHead H.next (H.ask _ rfl) (H.ask _ rfl) (H.deepen (H.ask _ rfl)) H.takePage
  bracketed h := H.toJoins.bracketed (H.ask _ rfl) (H.onPage h) (H.ask _ rfl)
  deepen q hq := H.deepen (H.ask q (by cases q <;> first | rfl | cases hq))
  leaveScopes := H.core.leaveScopes (w := w) (k := 0) (H.ask _ rfl) (fun _ => H.note _ rfl) fun n s => H.level s n
  learn := H.learn
  closure _ := H.note _ rfl
  use := H.use

theorem innerClass (hi : Keeps C inner) (starts : ∀ name base, Keeps C (startClass w name base false))
    (ends : Keeps C (endClass w)) : Keeps C (innerClass w inner) := by
  have L := H.laws
  exact .bind L (.consume L) fun _ => .bind L (.nameAfter L _ _) fun _ => .bind L (starts _ _) fun _ => .skip L _ <|
    .bind L H.goDeeper fun _ => .bind L hi fun _ => ends

end Course.Steps

/-- What a course that looks at no page has to say about members, and about classes in a class. -/
structure Course.MemberSteps (C : Course σ) (w : Writer σ) : Prop extends C.Steps w where
  askMember : ∀ q, q.ofMember = true → Keeps C (Read.ask w q)
  record : ∀ e, (∀ name returns, e ≠ .method name returns) → Keeps C (Read.record e)
  putMethod : ∀ m, Keeps C (Read.putMethod w m)
  innerClass : ∀ {inner}, Keeps C inner → ∀ s : Reader σ, s.current.value = "class" →
    C.Ends s (innerClass w inner s.next)

theorem Course.MemberSteps.laws (H : C.MemberSteps w) : C.ClassLaws w where
  toLaws := H.toSteps.laws
  askMember q hq := H.askMember q (by cases q <;> first | rfl | cases hq)
  withAccessors _ _ h := H.bind (H.deepen (H.askMember _ rfl)) fun _ => H.bind h fun _ => H.askMember _ rfl
  resuming h := .get_bind fun s => H.bind h fun _ s' =>
    H.trans (H.level s' s.level) (H.note (.resumed s.level) rfl { s' with level := s.level })
  record := H.record
  putMethod := H.putMethod
  level := H.level
  note n hn := H.note n (by cases n <;> first | rfl | cases hn)
  innerClass := H.innerClass

/-! ## Properties that hold once and for all -/

/-- The course on which a property of readers holds once and for all. -/
def Course.keeping (I : Reader σ → Prop) : Course σ where
  ok s s' := I s → I s'
  fault _ s s' := I s → I s'

/-- A property of readers that the moves of every kind keep. -/
structure StepInvariant (I : Reader σ → Prop) (w : Writer σ) : Prop where
  next : ∀ s : Reader σ, I s → I s.next
  log : ∀ (s : Reader σ) l, I s → I { s with desk := { s.desk with log := l } } := by exact fun _ _ h => h
  strings : ∀ (s : Reader σ) l, I s → I { s with strings := l } := by exact fun _ _ h => h
  inParens : ∀ (s : Reader σ) b, I s → I { s with inParens := b } := by exact fun _ _ h => h
  level : ∀ (s : Reader σ) n, I s → I { s with level := n } := by exact fun _ _ h => h
  asked : ∀ (s : Reader σ) q, I s → I { s with asked := q :: s.asked } := by exact fun _ _ h => h
  takePage : ∀ s, I s → I (endState (atDesk w.takePage s))
  note : ∀ (s : Reader σ) n, n.isPlain = true → I s → I { s with history := n :: s.history }
  learn : ∀ s name type, I s → I (endState (learn name type s))
  use : ∀ (s : Reader σ) name, I s → I { s with history := .used (useOf s name) :: s.history }

/-- A property of readers that every move in the body of a member keeps, if the target does. -/
structure BodyInvariant (I : Reader σ → Prop) (w : Writer σ) : Prop extends StepInvariant I w where
  serve : ∀ s q, q.inBlock = true → I s → I (endState (atDesk (w.serve q) s))

/-- A property of readers that the members of a class keep, and classes in it. -/
structure ClassInvariant (I : Reader σ → Prop) (w : Writer σ) : Prop extends BodyInvariant I w where
  serveMember : ∀ s q, q.ofMember = true → I s → I (endState (atDesk (w.serve q) s))
  record : ∀ s e, (∀ name returns, e ≠ .method name returns) → I s → I (endState (record e s))
  putMethod : ∀ m, Keeps (.keeping I) (putMethod w m)
  innerClass : ∀ {inner}, Keeps (.keeping I) inner → ∀ s : Reader σ, s.current.value = "class" → I s →
    Goes (innerClass w inner) s.next (fun _ => I) I

/-- A property of readers that the moves around the members of classes keep. -/
structure FrameInvariant (I : Reader σ → Prop) : Prop where
  isTool : ∀ (s : Reader σ) b, I s → I { s with isTool := b } := by exact fun _ _ h => h
  classes : ∀ (s : Reader σ) c, I s → I { s with classes := c } := by exact fun _ _ h => h
  record : ∀ s e, I s → I (endState (record e s))
  enter : ∀ (s : Reader σ) name base isMain, I s → I { s with
    history := (if isMain = true then .script name base else .opened name base) :: s.history
    classes := name :: s.classes
    desk := { s.desk with classes := s.desk.classes.declare name base } }

/-- A property of readers that every move keeps up to the end of a script, if the target does. -/
structure OuterInvariant (I : Reader σ → Prop) (w : Writer σ) : Prop extends BodyInvariant I w, FrameInvariant I where
  serveOuter : ∀ s q, q ≠ .endScript → I s → I (endState (atDesk (w.serve q) s))

/-- A property of readers that every move keeps, if the target does. -/
structure Invariant (I : Reader σ → Prop) (w : Writer σ) : Prop extends StepInvariant I w, FrameInvariant I where
  serve : ∀ s q, I s → I (endState (atDesk (w.serve q) s))

section keeping

variable {I : Reader σ → Prop}

variable {x : ReadM σ α}

theorem keeping_iff : Keeps (.keeping I) x ↔ ∀ s, I s → I (endState (x s)) := by
  constructor
  · intro h s hs
    have := h s
    cases hx : x s <;> rw [hx] at this <;> exact this hs
  · intro h s
    have := h s
    cases hx : x s <;> rw [hx] at this <;> exact this

theorem keeping_goes {s : Reader σ} (h : Keeps (.keeping I) x) (hs : I s) : Goes x s (fun _ => I) I :=
  (h.goes s).mono (fun _ _ h' => h' hs) fun _ ⟨_, h'⟩ => h' hs

theorem keeping_of_goes (h : ∀ s, I s → Goes x s (fun _ => I) I) : Keeps (.keeping I) x := by
  intro s
  have hs := h s
  unfold Goes at hs
  cases hx : x s <;> rw [hx] at hs <;> exact hs

theorem keeping_joins : (Course.keeping I).Joins where
  refl _ hs := hs
  trans h h' hs := h' (h hs)
  fail _ _ _ hs := hs
  trans_fault h h' hs := h' (h hs)

theorem keeping_bind {f : α → ReadM σ β} (hx : Keeps (.keeping I) x)
    (hf : ∀ a, Keeps (.keeping I) (f a)) : Keeps (.keeping I) (x >>= f) := keeping_joins.bind hx hf

theorem keeping_putMethod (hr : ∀ s e, I s → I (endState (record e s)))
    (ha : ∀ m, Keeps (.keeping I) (ask w (.method m))) (m : Method) : Keeps (.keeping I) (putMethod w m) :=
  keeping_joins.putMethod (fun e => keeping_iff.mpr fun s => hr s e) ha m

section body

variable (H : BodyInvariant I w)

include H

theorem keeping_serve (hq : ∀ s, I s → I (endState (atDesk (w.serve q) s))) : Keeps (.keeping I) (ask w q) :=
  keeping_bind (fun s => H.asked s q) fun _ => keeping_iff.mpr hq

theorem keeping_note {n : Note} (hn : n.isPlain = true) : Keeps (.keeping I) (note n) := fun s => H.note s n hn

theorem BodyInvariant.steps : (Course.keeping I).Steps w where
  toJoins := keeping_joins
  next := H.next
  log := H.log
  strings := H.strings
  inParens := H.inParens
  level := H.level
  ask q hq := keeping_serve H fun s => H.serve s q hq
  takePage := keeping_iff.mpr H.takePage
  note _ := keeping_note H
  learn name type := keeping_iff.mpr fun s => H.learn s name type
  use := H.use

theorem BodyInvariant.laws : (Course.keeping I).Laws w := H.steps.laws

theorem BodyInvariant.innerClass (hi : Keeps (.keeping I) inner)
    (starts : ∀ name base s, I s → Goes (startClass w name base false) s (fun _ => I) I)
    (ends : Keeps (.keeping I) (endClass w)) : Keeps (.keeping I) (innerClass w inner) :=
  H.steps.innerClass hi (fun name base => keeping_of_goes (starts name base)) ends

end body

theorem ClassInvariant.laws (H : ClassInvariant I w) : (Course.keeping I).ClassLaws w := Course.MemberSteps.laws
    { H.toBodyInvariant.steps with
      askMember := fun q hq => keeping_serve H.toBodyInvariant fun s => H.serveMember s q hq
      record := fun e he => keeping_iff.mpr fun s => H.record s e he
      putMethod := H.putMethod
      innerClass := fun {inner} h s hs => by
        have kept := H.innerClass h s hs
        unfold Goes at kept
        cases hi : Read.innerClass w inner s.next <;> rw [hi] at kept <;> exact kept }

section everywhere

variable (H : OuterInvariant I w)

include H

theorem keeping_outer (hq : q ≠ .endScript) : Keeps (.keeping I) (ask w q) :=
  keeping_serve H.toBodyInvariant fun s => H.serveOuter s q hq

theorem keeping_announceClass : Keeps (.keeping I) (announceClass w) := .get_bind fun _ => keeping_outer H nofun

theorem keeping_startClass (name base : String) (isMain : Bool) :
    Keeps (.keeping I) (startClass w name base isMain) := by
  rw [startClass, ← bind_assoc]
  refine keeping_bind (fun s => H.enter s name base isMain) fun _ => ?_
  exact keeping_bind (keeping_announceClass H) fun _ => .get_bind fun _ => keeping_outer H nofun

theorem keeping_endClass : Keeps (.keeping I) (endClass w) :=
  .get_bind fun _ => keeping_bind (keeping_outer H nofun) fun _ =>
    keeping_bind (keeping_note H.toBodyInvariant rfl) fun _ => keeping_bind (fun s => H.classes s _) fun _ =>
    keeping_announceClass H

theorem keeping_innerClass (h : Keeps (.keeping I) inner) : Keeps (.keeping I) (innerClass w inner) :=
  H.toBodyInvariant.innerClass h (fun _ _ _ => keeping_goes (keeping_startClass H _ _ _)) (keeping_endClass H)

theorem OuterInvariant.inClass : ClassInvariant I w := { H with
    serveMember := fun s q hq => H.serveOuter s q fun h => by rw [h] at hq; cases hq
    record := fun s e _ => H.record s e
    putMethod := keeping_putMethod H.record fun _ => keeping_outer H nofun
    innerClass := fun h s _ hs => keeping_goes (keeping_innerClass H h) (H.next s hs) }

theorem OuterInvariant.header (name : String) : Keeps (.keeping I) (header w name) := by
  have L := H.toBodyInvariant.laws
  rw [header_eq]
  exact .bind L (.headerNames L (keeping_note H.toBodyInvariant rfl) H.isTool name) fun _ =>
    .bind L (keeping_startClass H _ _ _) fun _ => .endLine L

end everywhere

theorem Invariant.toOuter (H : Invariant I w) : OuterInvariant I w :=
  { H with serve := fun s q _ => H.serve s q, serveOuter := fun s q _ => H.serve s q }

/-- **Scripts keep an invariant.** -/
theorem Invariant.laws (H : Invariant I w) : (Course.keeping I).ScriptLaws w where
  toClassLaws := H.toOuter.inClass.laws
  isTool := H.isTool
  startScript name base := keeping_startClass H.toOuter name base true
  endScript := keeping_serve H.toOuter.toBodyInvariant fun s => H.serve s _

end keeping

end Read

theorem run_of_invariant {σ : Type} {w : Writer σ} {I : Reader σ → Prop} (H : Read.Invariant I w)
    (name text : String) (desk : Desk σ)
    (hI : ∀ s : Reader σ, s.history = [] → s.locals = {} → s.desk.classes = desk.classes → I s) :
    ∃ s, I s ∧ (run w name text desk).history = s.history ∧ (run w name text desk).desk.classes = s.desk.classes := by
  cases h : (scan (text ++ "\n")).lexemes with
  | nil =>
    refine ⟨{ current := default, ahead := [], closing := [], desk }, hI _ rfl rfl rfl, ?_⟩
    unfold run
    simp only [h]
    exact ⟨trivial, rfl⟩
  | cons first rest =>
    rw [run_cons w name desk h]
    have kept := Read.Keeps.script H.laws (Read.depth (rest.length + 1)) name (startOf text desk first rest)
    generalize Read.script w _ name _ = result at kept ⊢
    cases result with
    | ok _ s | error _ s => exact ⟨s, kept (hI _ rfl rfl rfl), rfl, rfl⟩

end GdScribe
