import GdScribe.Proofs.Blocks.Drafts
import GdScribe.Proofs.Reader.Layers

/-!
# What bodies leave alone

The body of a member writes statements. In C++ it adds to a page, and outside all scopes to the declaration
of a class, but it changes no table, starts no class, and never fails for want of an entry.

* `CPlusPlus.Calmly`: what statements leave of what the target knows: the books of all classes.
* `Read.bodyCourse`: this way, with pages used as a stack.

Principal results: `bodyCourse_laws`, for expressions and statements, and `onPage_block`.
-/

namespace GdScribe

namespace CPlusPlus

open Target

/-- The draft of a class, or an empty one. -/
def State.draftOf (o : State) (c : String) : ClassDraft := (o.drafts.find? c).getD { name := c }

/-- What is kept of a class for its bindings and its `_ready` method. -/
def ClassDraft.books (c : ClassDraft) : ClassDraft :=
  { c with text := "", isProtected := false, statics := [] }

theorem ClassDraft.books_toPublic (c : ClassDraft) : c.toPublic.books = c.books := by
  unfold toPublic
  split <;> rfl

theorem ClassDraft.books_toProtected (c : ClassDraft) : c.toProtected.books = c.books := by
  unfold toProtected
  split <;> rfl

theorem State.draftOf_redraft (o : State) (f : ClassDraft → ClassDraft) (c : String) :
    (o.redraft f).draftOf c = if o.className = c then f (o.draftOf c) else o.draftOf c := by
  unfold draftOf redraft
  rw [Table.find?_put]
  by_cases h : o.className = c
  · rw [if_pos h, if_pos h, ← h]
    rfl
  · rw [if_neg h, if_neg h]

/-- A class is begun anew with its first text. -/
theorem State.draftOf_define (o : State) (text c : String) :
    (({ o with drafts := o.drafts.put o.className { name := o.className } } : State).redraft (·.add text)).draftOf c =
      if o.className = c then { name := c, text := text } else o.draftOf c := by
  have begun : ({ o with drafts := o.drafts.put o.className { name := o.className } } : State).draftOf c =
      if o.className = c then { name := c } else o.draftOf c := by
    unfold draftOf
    rw [Table.find?_put]
    by_cases h : o.className = c <;> simp [h]
  rw [draftOf_redraft, begun]
  by_cases h : o.className = c
  · rw [if_pos h, if_pos h, if_pos h, ClassDraft.add, String.empty_append]
  · rw [if_neg h, if_neg h, if_neg h]

/-- The books of all classes stay as they are. -/
structure Calmly (o o' : State) : Prop where
  className : o'.className = o.className
  books : ∀ c, (o'.draftOf c).books = (o.draftOf c).books

theorem Calmly.of_drafts {o o' : State} (hn : o'.className = o.className) (hd : o'.drafts = o.drafts) : Calmly o o' :=
  ⟨hn, fun c => by unfold State.draftOf; rw [hd]⟩

theorem Calmly.refl (o : State) : Calmly o o := .of_drafts rfl rfl

theorem Calmly.trans {a b c : State} (h : Calmly a b) (h' : Calmly b c) : Calmly a c :=
  ⟨h'.className.trans h.className, fun n => (h'.books n).trans (h.books n)⟩

theorem Calmly.redraft (o : State) {f : ClassDraft → ClassDraft} (h : ∀ c : ClassDraft, (f c).books = c.books) :
    Calmly o (o.redraft f) := by
  refine ⟨rfl, fun c => ?_⟩
  rw [State.draftOf_redraft]
  split
  · exact h _
  · rfl

theorem Calmly.outside (text : String) : Outside Calmly text := by
  intro o
  split
  · exact .of_drafts rfl rfl
  · exact .redraft o fun _ => rfl

instance : Tolerant Calmly where
  lines _ _ _ := .outside _
  use _ _ := .of_drafts rfl rfl

/-- The manner of statements, whatever page they write to. -/
def calm : PageManner State Calmly :=
  .ofPages
    { change := fun d d' => d'.classes = d.classes ∧ Calmly d.pages.own d'.pages.own
      fails := fun e _ _ => e.isPlain = true
      refl := fun _ => ⟨rfl, .refl _⟩
      trans := fun h h' => ⟨h'.1.trans h.1, h.2.trans h'.2⟩
      fault := fun _ _ h => h
      trans_fails := fun _ h => h }
    .refl (fun _ _ h => ⟨rfl, h⟩) fun _ _ => ⟨rfl, .refl _⟩

theorem serve_calm (z : Settings) {q : Request} (hq : q.inBlock = true) : calm.Allows (serve z q) :=
  serve_inBlock_allowed calm z q hq (fun _ _ => .outside _) (fun _ _ _ h => ⟨rfl, h⟩) fun _ => trivial

theorem openScope_page {d d' : Desk (Pages State)} {a : Unit} (h : openScope d = .ok a d') :
    d'.pages.page = d.pages.page ++ Page.indented d.pages.level "\n\x7b" := by
  obtain ⟨_, _, opened, -, -, pages, -⟩ := openScope_serves d rfl rfl
  cases h.symm.trans opened
  rw [pages]

/-- Code that starts with a brace, after a gap. -/
def Bodied (code : String) : Prop :=
  ∃ gap rest, code = gap ++ "\x7b" ++ rest ∧ ∀ c ∈ gap.toList, c = '\n' ∨ c = '\t'

theorem bodied_indented (level : Int) (text rest : String) :
    Bodied (Page.indented level ("\n\x7b" ++ text) ++ rest) := by
  refine ⟨"\n" ++ Text.tabs level, Page.indented level text ++ rest, ?_, fun c hc => ?_⟩
  · refine String.toList_injective ?_
    simp [Outline.toList_indented, Outline.toList_tabs]
  · rw [String.toList_append, Outline.toList_tabs] at hc
    exact (List.mem_append.mp hc).imp (by simp) List.eq_of_mem_replicate

end CPlusPlus

namespace Read

open CPlusPlus

variable {σ α : Type} {z : Target.Settings}

/-! ## Two courses at once -/

/-- Two courses at once. -/
def Course.and (C D : Course σ) : Course σ where
  ok s s' := C.ok s s' ∧ D.ok s s'
  fault e s s' := C.fault e s s' ∧ D.fault e s s'

theorem keeps_and {C D : Course σ} {x : ReadM σ α} : Keeps (C.and D) x ↔ Keeps C x ∧ Keeps D x := by
  unfold Keeps
  rw [← forall_and]
  refine forall_congr' fun s => ?_
  cases x s <;> exact Iff.rfl

theorem Course.Laws.and {C D : Course σ} {w : Writer σ} (L : C.Laws w) (L' : D.Laws w) : (C.and D).Laws w where
  refl s := ⟨L.refl s, L'.refl s⟩
  trans h h' := ⟨L.trans h.1 h'.1, L'.trans h.2 h'.2⟩
  fail e s h := ⟨L.fail e s h, L'.fail e s h⟩
  trans_fault h h' := ⟨L.trans_fault h.1 h'.1, L'.trans_fault h.2 h'.2⟩
  next s := ⟨L.next s, L'.next s⟩
  log s l := ⟨L.log s l, L'.log s l⟩
  strings s l := ⟨L.strings s l, L'.strings s l⟩
  inParens s b := ⟨L.inParens s b, L'.inParens s b⟩
  ask q hq := keeps_and.mpr ⟨L.ask q hq, L'.ask q hq⟩
  onPage h := keeps_and.mpr ⟨L.onPage (keeps_and.mp h).1, L'.onPage (keeps_and.mp h).2⟩
  choiceHead b e := keeps_and.mpr ⟨L.choiceHead b e, L'.choiceHead b e⟩
  bracketed h := keeps_and.mpr ⟨L.bracketed (keeps_and.mp h).1, L'.bracketed (keeps_and.mp h).2⟩
  deepen q hq := keeps_and.mpr ⟨L.deepen q hq, L'.deepen q hq⟩
  leaveScopes i := keeps_and.mpr ⟨L.leaveScopes i, L'.leaveScopes i⟩
  learn n t := keeps_and.mpr ⟨L.learn n t, L'.learn n t⟩
  closure k := keeps_and.mpr ⟨L.closure k, L'.closure k⟩
  use s n := ⟨L.use s n, L'.use s n⟩

/-! ## Bodies -/

/-- The way of a reader through a body. -/
structure Calm (s s' : Reader (Pages State)) : Prop where
  classes : s'.classes = s.classes
  table : s'.desk.classes = s.desk.classes
  own : Calmly s.desk.pages.own s'.desk.pages.own
  started : startedNames s'.history = startedNames s.history
  asked : ∃ qs, s'.asked = qs ++ s.asked ∧ ∀ q ∈ qs, q.inBlock = true

variable {s s' : Reader (Pages State)}

theorem Calm.same (hc : s'.classes = s.classes) (ht : s'.desk.classes = s.desk.classes)
    (hp : s'.desk.pages = s.desk.pages) (hs : startedNames s'.history = startedNames s.history)
    (ha : s'.asked = s.asked) : Calm s s' :=
  ⟨hc, ht, by rw [hp]; exact .refl _, hs, [], ha, nofun⟩

theorem Calm.trans {a b c : Reader (Pages State)} (h : Calm a b) (h' : Calm b c) : Calm a c := by
  obtain ⟨qs, ha, hq⟩ := h.asked
  obtain ⟨qs', ha', hq'⟩ := h'.asked
  refine ⟨h'.classes.trans h.classes, h'.table.trans h.table, h.own.trans h'.own, h'.started.trans h.started,
    qs' ++ qs, by rw [ha', ha, List.append_assoc], fun q hm => ?_⟩
  exact (List.mem_append.mp hm).elim (hq' q) (hq q)

/-- The course of a reader through a body, whatever pages it writes to. -/
def calmCourse : Course (Pages State) where
  ok := Calm
  fault e _ _ := ∀ m, e ≠ .unknownEntry m

theorem calmCourse_steps : calmCourse.Steps (writer z) where
  refl _ := .same rfl rfl rfl rfl rfl
  trans := Calm.trans
  fail e _ h := by rintro m rfl; cases h
  trans_fault _ h := h
  next s := by
    unfold Reader.next
    split <;> exact .same rfl rfl rfl rfl rfl
  log _ _ := .same rfl rfl rfl rfl rfl
  strings _ _ := .same rfl rfl rfl rfl rfl
  inParens _ _ := .same rfl rfl rfl rfl rfl
  level _ _ := .same rfl rfl rfl rfl rfl
  ask q hq s := by
    have served := serve_calm z hq s.desk
    show calmCourse.Ends s (atDesk ((writer z).serve q) { s with asked := q :: s.asked })
    unfold atDesk
    dsimp only [writer]
    cases hd : serve z q s.desk with
    | ok a d =>
      rw [hd] at served
      exact ⟨rfl, served.1, served.2, rfl, [q], rfl, by simpa using hq⟩
    | error e d =>
      rw [hd] at served
      rintro m rfl
      cases served
  takePage _ := ⟨rfl, rfl, .refl _, rfl, [], rfl, nofun⟩
  note n hn s := .same rfl rfl rfl (startedNames_note (by cases n <;> first | rfl | cases hn) _) rfl
  learn _ _ _ := .same rfl rfl rfl (startedNames_note rfl _) rfl
  use _ _ := .same rfl rfl rfl (startedNames_note rfl _) rfl

/-- The course of a reader through a body. -/
def bodyCourse (z : Target.Settings) : Course (Pages State) := (stackCourse State (MayWrite z)).and calmCourse

theorem bodyCourse_laws (z : Target.Settings) : (bodyCourse z).Laws (writer z) :=
  (stackCourse_laws (writer_stacks z)).and calmCourse_steps.laws

theorem ok_calm {x : ReadM (Pages State) α} {a : α} (h : Keeps (bodyCourse z) x)
    (hx : x s = .ok a s') : (bodyCourse z).ok s s' := by
  have := h s
  rwa [hx] at this

/-- **The code of a body starts with its brace**: a scope is opened before all else. -/
theorem onPage_block {r : Rules (Pages State)} (H : RulesKeep (bodyCourse z) r)
    {x : Ty × String} (h : onPage (writer z) (block (writer z) r) s = .ok x s') : Bodied x.2 := by
  have L := bodyCourse_laws z
  obtain ⟨_, s1, h1, h⟩ := bind_eq_ok h
  obtain ⟨t, s2, h2, h⟩ := bind_eq_ok h
  obtain ⟨code, s3, h3, h⟩ := bind_eq_ok h
  cases h
  obtain ⟨level, s4, h4, h2⟩ := bind_eq_ok h2
  obtain ⟨_, _, hd, h4⟩ := bind_eq_ok h4
  cases hd
  obtain ⟨_, s5, ha, h4⟩ := bind_eq_ok h4
  cases h4
  obtain ⟨d1, hd1, rfl⟩ := ask_eq_ok h1
  cases hd1
  obtain ⟨d, served, rfl⟩ := ask_eq_ok ha
  have opened := openScope_page served
  have rest : Keeps (bodyCourse z) (whileMoving (do return s.level + 1 ≤ (← get).level) (fun t => do
      let t' ← statement (writer z) r
      endLine (writer z)
      return .yield (Ty.orElse t t')) none) :=
    .whileMoving L (.get_bind fun _ => .pure L _)
      (fun _ => .bind L (H.statement L.logic) fun _ => .bind L (.endLine L) fun _ => .pure L _) _
  obtain ⟨-, text, page⟩ := (ok_calm rest h2).1.pages
  cases h3
  rw [page]
  rw [opened]
  exact bodied_indented s.desk.pages.level "" text

end Read

end GdScribe
