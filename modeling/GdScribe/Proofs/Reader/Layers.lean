import GdScribe.Proofs.Classes.Frame

/-!
# Pages and classes as stacks

The pages of a target and the classes that a reader is in are used as stacks: what a procedure opens, it
closes again, and of what was there before it only adds to the page that is written to.

* `Pages.Adds`: the pages below are as before, and the page has more text at its end.
* `Wrote`: what requests have written on a page, one after the other.
* `Writer.Stacks`: the targets that keep to this, with the requests that open and close pages in pairs.
* `Stacked`, `stackCourse`: the course of a reader with such a target.
* `Procedure`: the procedures that read a script.

Principal result: `procedures_keep_stacks`.
-/

namespace GdScribe

open Target (Settings)
open Read (Keeps Course RulesKeep)

variable {σ τ α : Type}

/-! ## Targets -/

/-- A text that requests have written on a page, one after the other; the last request stands first. Each has written
a text as `G` tells. -/
inductive Wrote (G : Request → String → Prop) : List Request → String → Prop
  | nil : Wrote G [] ""
  | cons {q : Request} {qs : List Request} {text more : String} (h : Wrote G qs text) (hq : G q more) :
      Wrote G (q :: qs) (text ++ more)

namespace Wrote

variable {G : Request → String → Prop} {qs l : List Request} {text more : String}

theorem append (h : Wrote G qs text) (h' : Wrote G l more) : Wrote G (l ++ qs) (text ++ more) := by
  induction h' with
  | nil => rwa [String.append_empty]
  | cons _ hq ih =>
    rw [← String.append_assoc]
    exact ih.cons hq

theorem one {q : Request} (hq : G q text) : Wrote G [q] text := by
  have wrote := Wrote.nil.cons hq
  rwa [String.empty_append] at wrote

theorem silent (hG : ∀ q, G q "") (qs : List Request) : Wrote G qs "" := by
  induction qs with
  | nil => exact .nil
  | cons q qs ih => exact ih.cons (hG q)

end Wrote

/-- Pages to which requests have added text. -/
def Pages.AddsBy (G : Request → String → Prop) (qs : List Request) (p p' : Pages τ) : Prop :=
  p'.below = p.below ∧ ∃ text, p'.page = p.page ++ text ∧ Wrote G qs text

variable {G : Request → String → Prop}

theorem Pages.AddsBy.trans {p q r : Pages τ} {qs l : List Request} (h : p.AddsBy G qs q) (h' : q.AddsBy G l r) :
    p.AddsBy G (l ++ qs) r := by
  obtain ⟨hb, text, hp, wrote⟩ := h
  obtain ⟨hb', text', hp', wrote'⟩ := h'
  exact ⟨hb'.trans hb, text ++ text', by rw [hp', hp, String.append_assoc], wrote.append wrote'⟩

/-- A target whose requests keep to a stack of pages, and write on the topmost page as `G` tells. A request that writes
to a page that is taken off writes nothing on the page below it. -/
structure Writer.Stacks (w : Writer (Pages τ)) (G : Request → String → Prop) : Prop where
  silent : ∀ q, G q ""
  serve : ∀ q d a d', q.turns = false → w.serve q d = .ok a d' → d.pages.AddsBy G [q] d'.pages
  openPage : w.serve .openPage = Page.openPage
  takePage : w.takePage = Page.takePage
  /-- A chain of comparisons starts on a page of its own. -/
  matchHead : ∀ d a d', w.serve (.matchHead false) d = .ok a d' → d'.pages.below = d.pages.page :: d.pages.below
  /-- A property with accessors ends where it started. -/
  accessors : ∀ p found qs d a d1 d2 b d', w.serve (.property p true) d = .ok a d1 →
    d1.pages.AddsBy G qs d2.pages → w.serve (.endProperty p found) d2 = .ok b d' →
    d.pages.AddsBy G (.endProperty p found :: (qs ++ [.property p true])) d'.pages

/-- A text that an action adds to the page when it ends well. -/
def CanWrite (act : PageM τ Unit) (text : String) : Prop :=
  ∃ d d', act d = .ok () d' ∧ d'.pages.page = d.pages.page ++ text

/-- A page of its own is taken off again, and leaves the other pages as they were. -/
theorem Page.onPage_eq_ok {act : PageM τ Unit} {d d' : Desk (Pages τ)} {text : String}
    (h : Page.onPage act d = .ok text d') : ∃ d0 d1, act d0 = .ok () d1 ∧ d0.pages.page = "" ∧ text = d1.pages.page ∧
      (d1.pages.below = d0.pages.below → d'.pages.page = d.pages.page ∧ d'.pages.below = d.pages.below) := by
  obtain ⟨d0, page, below0, h⟩ : ∃ d0, d0.pages.page = "" ∧ d0.pages.below = d.pages.page :: d.pages.below ∧
      (act >>= fun _ => Page.takePage) d0 = .ok text d' := ⟨_, rfl, rfl, h⟩
  obtain ⟨_, d1, acted, h⟩ := Read.bind_eq_ok h
  cases h
  refine ⟨d0, d1, acted, page, rfl, fun below => ⟨?_, ?_⟩⟩
  · show d1.pages.below.headD "" = _
    rw [below, below0]
    rfl
  · show d1.pages.below.drop 1 = _
    rw [below, below0]
    rfl

variable {owns : τ → τ → Prop}

/-- The manner of actions that end well only with text added to a page. -/
def PageManner.adding (owns_refl : ∀ o, owns o o) : PageManner τ owns where
  toManner := .ending (fun d d' => d.pages.Adds d'.pages) (fun _ => .of_eq rfl rfl) .trans
  owns_refl := owns_refl
  adds _ _ h _ _ := h
  scopes := True
  shift _ _ _ := .of_eq rfl rfl
  deeper h := .bind (x := Page.shift 1) (fun _ => .of_eq rfl rfl) fun _ => h.bind fun _ _ => .of_eq rfl rfl
  note _ _ := .of_eq rfl rfl
  onPage {act} h := by
    intro d
    cases hd : Page.onPage act d with
    | error e d' => trivial
    | ok text d' =>
      obtain ⟨_, _, acted, -, -, returns⟩ := Page.onPage_eq_ok hd
      obtain ⟨page, below⟩ := returns (h.ok acted).1
      exact .of_eq below page

variable {a : Unit}

theorem Dialect.matchHead_opens {c : Dialect τ} (owns_refl : ∀ o, owns o o)
    (H : c.Has fun x => (PageManner.adding owns_refl).Allows x) {d d' : Desk (Pages τ)}
    (h : c.matchHead false d = .ok a d') : d'.pages.below = d.pages.page :: d.pages.below := by
  obtain ⟨_, d1, h1, h2⟩ := Read.bind_eq_ok h
  cases h1
  exact ((H.put _).ok h2).1

variable {below : List String}

namespace CSharp

/-- What C# adds to a page. -/
def adding : PageManner State Freely := .adding fun _ => trivial

variable {s : Settings} {p : Property}

theorem property_opens {d d' : Desk (Pages State)} (h : property s p true d = .ok a d') :
    ∃ text, d'.pages.below = (d.pages.page ++ text) :: d.pages.below := by
  obtain ⟨_, d1, h1, h⟩ := Read.bind_eq_ok h
  obtain ⟨_, d2, h2, h⟩ := Read.bind_eq_ok h
  obtain ⟨_, d3, h3, h⟩ := Read.bind_eq_ok h
  obtain ⟨text, d4, h4, h⟩ := Read.bind_eq_ok h
  obtain ⟨_, d5, h5, h⟩ := Read.bind_eq_ok h
  obtain ⟨_, d6, h6, h⟩ := Read.bind_eq_ok h
  have before : d.pages.Adds d5.pages :=
    ((((exposure_allowed adding _ _).ok h1).trans ((typeText_allowed adding s _).ok h2)).trans
      ((put_allowed adding _).ok h3)).trans (((initialText_allowed adding s _).ok h4).trans
        ((adding.modifyOwn _ fun _ => trivial).ok h5))
  have after : d6.pages.Adds d'.pages := ((openScope_allowed adding trivial).bind fun _ => put_allowed adding _).ok h
  obtain ⟨below, text, page⟩ := before
  cases h6
  refine ⟨text, ?_⟩
  rw [after.1, ← page, ← below]

theorem endProperty_takes {found : List Accessor} {d d' : Desk (Pages State)}
    (h : endProperty s p found d = .ok a d') {page : String} (hd : d.pages.below = page :: below) :
    d'.pages.below = below ∧ ∃ text, d'.pages.page = page ++ text := by
  unfold endProperty at h
  cases hl : found.getLast? with
  | none =>
    rw [hl] at h
    cases h
  | some last =>
    rw [hl] at h
    obtain ⟨_, d1, h1, h⟩ := Read.bind_eq_ok h
    obtain ⟨code, d2, h2, h⟩ := Read.bind_eq_ok h
    have closed : adding.Allows (closeAccessors last) :=
      .ite ((adding.shift trivial _).bind fun _ => put_allowed adding _) (.pure _)
    have below1 : d1.pages.below = page :: below := (closed.ok h1).1.trans hd
    have written : d2.pages.Adds d'.pages := ((withField_allowed adding s p code).bind fun code =>
        (withMissing_allowed adding p found code).bind adding.write).ok h
    cases h2
    obtain ⟨below2, text, page2⟩ := written
    refine ⟨?_, text, ?_⟩
    · rw [below2]
      rw [below1]
      rfl
    · rw [page2]
      rw [below1]
      rfl

theorem writer_stacks (s : Settings) : (writer s).Stacks fun _ _ => True where
  silent _ := trivial
  serve q d a d' hq h := by
    obtain ⟨below, text, page⟩ :=
      (serve_allowed adding s q (fun turns => by rw [hq] at turns; cases turns) fun _ => trivial).ok h
    exact ⟨below, text, page, .one trivial⟩
  openPage := rfl
  takePage := rfl
  matchHead d a d' h := Dialect.matchHead_opens (fun _ => trivial) (dialect_allowed adding s) h
  accessors p found qs d a d1 d2 b d' h1 h2 h3 := by
    obtain ⟨text, opened⟩ := property_opens h1
    obtain ⟨below, text', page⟩ := endProperty_takes h3 (h2.1.trans opened)
    have wrote : Wrote (fun _ _ => True) _ ("" ++ (text ++ text')) :=
      (Wrote.silent (fun _ => trivial) (qs ++ [.property p true])).cons (q := .endProperty p found) trivial
    exact ⟨below, text ++ text', by rw [page, String.append_assoc], by rwa [String.empty_append] at wrote⟩

end CSharp

namespace CPlusPlus

/-- What C++ adds to a page. -/
def adding : PageManner State SameClass := .adding SameClass.refl

theorem adding_registers {z : Settings} : RegistersAll adding z :=
  .of_all (fun _ _ _ => .of_eq rfl rfl) fun _ _ => trivial

/-- A text that serving a request adds to the page, or none if the page is taken off. -/
def MayWrite (s : Settings) (q : Request) (text : String) : Prop := text = "" ∨ CanWrite (serve s q) text

theorem addsBy_of_serve {s : Settings} {q : Request} {d d' : Desk (Pages State)} (h : (writer s).serve q d = .ok a d')
    (adds : d.pages.Adds d'.pages) : d.pages.AddsBy (MayWrite s) [q] d'.pages := by
  obtain ⟨below, text, page⟩ := adds
  exact ⟨below, text, page, .one (.inr ⟨d, d', h, page⟩)⟩

theorem writer_stacks (s : Settings) : (writer s).Stacks (MayWrite s) where
  silent _ := .inl rfl
  serve q d a d' hq h := addsBy_of_serve h
    ((serve_allowed s adding q (fun turns => by rw [hq] at turns; cases turns) (fun _ => adding_registers)
      (fun _ _ _ => .of_eq rfl rfl) (fun _ _ _ _ _ _ => .of_eq rfl rfl) fun _ => trivial).ok h)
  openPage := rfl
  takePage := rfl
  matchHead d a d' h := Dialect.matchHead_opens (fun _ => ⟨rfl, rfl⟩) (dialect_allowed adding s) h
  accessors p found qs d a d1 d2 b d' h1 h2 h3 :=
    ((addsBy_of_serve h1 ((property_allowed adding s p).ok h1)).trans h2).trans
      (addsBy_of_serve h3 ((endProperty_allowed adding_registers.toRegisters p found).ok h3))

end CPlusPlus

/-! ## Readers -/

variable {text : String}

namespace Read

variable {w : Writer (Pages τ)} {s s' : Reader (Pages τ)}

/-- The requests of a reader have added to the page that is written to. -/
def Adding (G : Request → String → Prop) (s s' : Reader (Pages τ)) : Prop :=
  ∃ qs, s'.asked = qs ++ s.asked ∧ s.desk.pages.AddsBy G qs s'.desk.pages

theorem Adding.trans {a b c : Reader (Pages τ)} (h : Adding G a b) (h' : Adding G b c) : Adding G a c := by
  obtain ⟨qs, asked, adds⟩ := h
  obtain ⟨l, asked', adds'⟩ := h'
  exact ⟨l ++ qs, by rw [asked', asked, List.append_assoc], adds.trans adds'⟩

/-- The way of a reader that leaves its classes as they were, and adds to the page that is written to. A
reader that is in no class may get into one. -/
structure Stacked (G : Request → String → Prop) (s s' : Reader (Pages τ)) : Prop where
  adding : Adding G s s'
  classes : s.classes ≠ [] → s'.classes = s.classes

theorem Stacked.pages (h : Stacked G s s') : s.desk.pages.Adds s'.desk.pages := by
  obtain ⟨_, _, below, text, page, _⟩ := h.adding
  exact ⟨below, text, page⟩

/-- The course of a reader that ends well with the stacks as they were. -/
def stackCourse (τ : Type) (G : Request → String → Prop) : Course (Pages τ) where
  ok := Stacked G
  fault _ _ _ := True

theorem Stacked.same (hp : s'.desk.pages = s.desk.pages) (hc : s'.classes = s.classes) (ha : s'.asked = s.asked) :
    Stacked G s s' :=
  ⟨⟨[], ha, by rw [hp]; exact ⟨rfl, "", String.append_empty.symm, .nil⟩⟩, fun _ => hc⟩

theorem Stacked.trans {a b c : Reader (Pages τ)} (h : Stacked G a b) (h' : Stacked G b c) : Stacked G a c := by
  refine ⟨h.adding.trans h'.adding, fun ha => ?_⟩
  have hb := h.classes ha
  exact (h'.classes (hb ▸ ha)).trans hb

theorem stackCourse_joins : (stackCourse τ G).Joins where
  refl _ := .same rfl rfl rfl
  trans h h' := h.trans h'
  fail _ _ _ := trivial
  trans_fault _ _ := trivial

variable {x : ReadM (Pages τ) α} {q : Request}

theorem stacked_of_ok (h : ∀ s a s', x s = .ok a s' → Stacked G s s') : Keeps (stackCourse τ G) x := by
  intro s
  cases hx : x s with
  | ok a s' => exact h s a s' hx
  | error e s' => trivial

theorem ok_stacked (h : Keeps (stackCourse τ G) x) {a : α} (hx : x s = .ok a s') : Stacked G s s' := by
  have := h s
  rw [hx] at this
  exact this

theorem next_stacked (s : Reader (Pages τ)) : Stacked G s s.next := by
  unfold Reader.next
  split <;> exact .same rfl rfl rfl

theorem stackCourse_moves : (stackCourse τ G).Moves where
  toJoins := stackCourse_joins
  next := next_stacked
  log _ _ := .same rfl rfl rfl
  strings _ _ := .same rfl rfl rfl
  inParens _ _ := .same rfl rfl rfl

theorem ask_stacked (W : w.Stacks G) (hq : q.turns = false) : Keeps (stackCourse τ G) (ask w q) := by
  refine stacked_of_ok fun s a s' h => ?_
  obtain ⟨d, hd, rfl⟩ := ask_eq_ok h
  exact ⟨⟨[q], rfl, W.serve q _ _ _ hq hd⟩, fun _ => rfl⟩

/-- A page that was opened is taken off: what was written to it is not on the page below. -/
theorem takePage_stacked (W : w.Stacks G) (s0 : Reader (Pages τ)) (qs : List Request)
    (hs : s.desk.pages.below = s0.desk.pages.page :: s0.desk.pages.below) (ha : s.asked = qs ++ s0.asked)
    (h : takePage w s = .ok text s') : Adding G s0 s' ∧ s'.classes = s.classes := by
  unfold takePage at h
  rw [W.takePage] at h
  cases h
  refine ⟨⟨qs, ha, ?_, "", ?_, .silent W.silent qs⟩, rfl⟩
  · show s.desk.pages.below.drop 1 = _
    rw [hs]
    rfl
  · show s.desk.pages.below.headD "" = _
    rw [hs]
    exact String.append_empty.symm

theorem onPage_stacked (W : w.Stacks G) (hx : Keeps (stackCourse τ G) x) : Keeps (stackCourse τ G) (onPage w x) := by
  refine stacked_of_ok fun s a s' h => ?_
  obtain ⟨_, s1, h1, h⟩ := bind_eq_ok h
  obtain ⟨_, s2, h2, h⟩ := bind_eq_ok h
  obtain ⟨_, s3, h3, h⟩ := bind_eq_ok h
  cases h
  obtain ⟨d, hd, rfl⟩ := ask_eq_ok h1
  rw [W.openPage] at hd
  cases hd
  have inside := ok_stacked hx h2
  obtain ⟨qs, asked, below, -⟩ := inside.adding
  obtain ⟨adding, classes⟩ := takePage_stacked W s (qs ++ [.openPage]) below (by rw [asked]; simp) h3
  exact ⟨adding, fun hc => classes.trans (inside.classes hc)⟩

theorem goDeeper_stacked : Keeps (stackCourse τ G) goDeeper := fun _ => Stacked.same rfl rfl rfl

theorem deepen_stacked (hq : Keeps (stackCourse τ G) (ask w q)) : Keeps (stackCourse τ G) (deepen w q) :=
  stackCourse_joins.bind goDeeper_stacked fun _ => stackCourse_joins.bind hq fun _ =>
    .get_bind stackCourse_joins.pure

variable (W : w.Stacks G)

include W

/-- The start of a choice. A chain of comparisons writes its subject to a page of its own, which is taken
off before the first case. -/
theorem choiceHead_stacked (byJump : Bool) (subject : Expr) :
    Keeps (stackCourse τ G) (choiceHead w byJump subject) := by
  have middle : Keeps (stackCourse τ G) (do
      ask w (.expr subject)
      let _ ← expect ":"
      deepen w (.matchSubject byJump)) :=
    stackCourse_joins.bind (ask_stacked W rfl) fun _ => stackCourse_joins.bind (.expect stackCourse_moves _) fun _ =>
      deepen_stacked (ask_stacked W rfl)
  have split : choiceHead w byJump subject = (do
      ask w (.matchHead byJump)
      let level ← (do
        ask w (.expr subject)
        let _ ← expect ":"
        deepen w (.matchSubject byJump))
      let comparison ← caseComparison w byJump
      return (level, comparison)) := by simp only [choiceHead, bind_assoc]
  rw [split]
  cases byJump with
  | true =>
    exact stackCourse_joins.bind (ask_stacked W rfl) fun _ => stackCourse_joins.bind middle fun _ =>
      stackCourse_joins.bind (stackCourse_joins.pure _) stackCourse_joins.pure
  | false =>
    refine stacked_of_ok fun s a s' h => ?_
    obtain ⟨_, s1, h1, h⟩ := bind_eq_ok h
    obtain ⟨_, s2, h2, h⟩ := bind_eq_ok h
    obtain ⟨_, s3, h3, h⟩ := bind_eq_ok h
    cases h
    obtain ⟨d, hd, rfl⟩ := ask_eq_ok h1
    have inside := ok_stacked middle h2
    obtain ⟨qs, asked, below, -⟩ := inside.adding
    obtain ⟨adding, classes⟩ := takePage_stacked W s (qs ++ [.matchHead false])
      (below.trans (W.matchHead _ _ _ hd)) (by rw [asked]; simp) h3
    exact ⟨adding, fun hc => classes.trans (inside.classes hc)⟩

/-- **Expressions and statements leave the stacks as they were.** -/
theorem stackCourse_laws : (stackCourse τ G).Laws w where
  toMoves := stackCourse_moves
  ask q hq := ask_stacked W (by cases q <;> first | rfl | cases hq)
  onPage := onPage_stacked W
  choiceHead := choiceHead_stacked W
  bracketed h := stackCourse_joins.bracketed (ask_stacked W rfl) (onPage_stacked W h) (ask_stacked W rfl)
  deepen q hq := deepen_stacked (ask_stacked W (by cases q <;> first | rfl | cases hq))
  leaveScopes := stackCourse_moves.core.leaveScopes (w := w) (k := 0) (ask_stacked W rfl)
    (fun _ _ => Stacked.same rfl rfl rfl) fun _ _ => Stacked.same rfl rfl rfl
  learn _ _ _ := Stacked.same rfl rfl rfl
  closure _ _ := Stacked.same rfl rfl rfl
  use _ _ := .same rfl rfl rfl

/-- A property with accessors: the page that it opens is taken off when it ends. -/
theorem withAccessors_stacked (p : Property) {x : ReadM (Pages τ) (List Accessor)}
    (hx : Keeps (stackCourse τ G) x) : Keeps (stackCourse τ G) (withAccessors w p x) := by
  refine stacked_of_ok fun s a s' h => ?_
  obtain ⟨_, s1, h1, h⟩ := bind_eq_ok h
  obtain ⟨found, s2, h2, h⟩ := bind_eq_ok h
  obtain ⟨d', hd', rfl⟩ := ask_eq_ok h
  obtain ⟨_, _, hdeeper, h1⟩ := bind_eq_ok h1
  cases hdeeper
  obtain ⟨_, _, hask, h1⟩ := bind_eq_ok h1
  cases h1
  obtain ⟨d1, hd1, rfl⟩ := ask_eq_ok hask
  have inside := ok_stacked hx h2
  obtain ⟨qs, asked, adds⟩ := inside.adding
  exact ⟨⟨_, by rw [asked]; simp, W.accessors p found qs _ _ _ _ _ _ hd1 adds hd'⟩, inside.classes⟩

theorem startClass_pushes {name base : String} {isMain : Bool} (h : startClass w name base isMain s = .ok a s') :
    Adding G s s' ∧ s'.classes = name :: s.classes := by
  obtain ⟨_, s1, h1, h⟩ := bind_eq_ok h
  obtain ⟨_, s2, h2, h⟩ := bind_eq_ok h
  cases h1
  cases h2
  have stacked := ok_stacked (by
    exact stackCourse_joins.bind (.get_bind fun _ => ask_stacked W rfl) fun _ => .get_bind fun _ => ask_stacked W rfl) h
  exact ⟨stacked.adding, stacked.classes (List.cons_ne_nil _ _)⟩

/-- **A class that is pushed is popped by the same call.** -/
theorem innerClass_stacked {inner : ReadM (Pages τ) Unit} (hi : Keeps (stackCourse τ G) inner) :
    Keeps (stackCourse τ G) (innerClass w inner) := by
  have L := stackCourse_laws W
  refine stacked_of_ok fun s a s' h => ?_
  obtain ⟨name, s1, h1, h⟩ := bind_eq_ok h
  obtain ⟨base, s2, h2, h⟩ := bind_eq_ok h
  obtain ⟨_, s3, h3, h⟩ := bind_eq_ok h
  obtain ⟨_, s4, h4, h⟩ := bind_eq_ok h
  obtain ⟨_, s5, h5, h⟩ := bind_eq_ok h
  obtain ⟨_, s6, h6, h⟩ := bind_eq_ok h
  have before := (ok_stacked (.consume L) h1).trans (ok_stacked (.nameAfter L _ _) h2)
  obtain ⟨adding, pushed⟩ := startClass_pushes W h3
  have inside := ((ok_stacked (.expect L _) h4).trans (ok_stacked goDeeper_stacked h5)).trans (ok_stacked hi h6)
  -- the end of the class
  obtain ⟨_, _, hget, h⟩ := bind_eq_ok h
  cases hget
  obtain ⟨_, s7, h7, h⟩ := bind_eq_ok h
  obtain ⟨_, s8, h8, h⟩ := bind_eq_ok h
  have ended := ok_stacked (ask_stacked W rfl) h7
  cases h8
  have announced := ok_stacked (.get_bind fun _ => ask_stacked W rfl : Keeps (stackCourse τ G) (announceClass w)) h
  refine ⟨before.adding.trans (adding.trans (inside.adding.trans (ended.adding.trans announced.adding))), fun hs => ?_⟩
  have some : s3.classes ≠ [] := by rw [pushed]; exact List.cons_ne_nil _ _
  have open7 : s7.classes = name :: s.classes := by
    rw [(inside.trans ended).classes some, pushed, before.classes hs]
  have two : 1 < s7.classes.length := by
    rw [open7, List.length_cons]
    have := List.length_pos_iff.mpr hs
    omega
  have popped : s7.enclosing = s.classes := by
    rw [Reader.enclosing, if_pos two, open7]
    rfl
  exact (announced.classes (by show s7.enclosing ≠ []; rw [popped]; exact hs)).trans popped

/-- **Classes leave the stacks as they were.** -/
theorem stackCourse_classLaws : (stackCourse τ G).ClassLaws w where
  toLaws := stackCourse_laws W
  askMember q hq := ask_stacked W (by
    cases q with
    | property p accessors => cases accessors <;> first | rfl | cases hq
    | _ => first | rfl | cases hq)
  withAccessors p _ h := withAccessors_stacked W p h
  resuming h := .get_bind fun _ => stackCourse_joins.bind h fun _ _ => Stacked.same rfl rfl rfl
  record _ _ _ := Stacked.same rfl rfl rfl
  putMethod := stackCourse_joins.putMethod (fun _ _ => Stacked.same rfl rfl rfl) fun _ => ask_stacked W rfl
  level _ _ := .same rfl rfl rfl
  note _ _ _ := Stacked.same rfl rfl rfl
  innerClass {inner} hi s _ :=
    Goes.mono (innerClass_stacked W hi s.next) (fun _ _ h => (next_stacked s).trans h) fun _ _ => trivial

omit W

/-! ## Procedures -/

/-- The procedures that read a script, with the rules that call each other at most `n` deep. -/
inductive Procedure (w : Writer σ) (n : Nat) : (α : Type) → ReadM σ α → Prop
  | endLine : Procedure w n Unit (endLine w)
  | type : Procedure w n Ty type
  | expression : Procedure w n Typed (expression w (rules w n))
  | ternary : Procedure w n Typed (ternary w (rules w n))
  | boolean : Procedure w n Typed (boolean w (rules w n))
  | arithmetic : Procedure w n Typed (arithmetic w (rules w n))
  | sum : Procedure w n Typed (sum w (rules w n))
  | dereference : Procedure w n Typed (dereference w (rules w n))
  | value : Procedure w n Typed (value w (rules w n))
  | lambda : Procedure w n Typed (lambda w (rules w n))
  | grouped : Procedure w n Typed (grouped w (rules w n))
  | reference (owner : Ty) (singleton : Bool) : Procedure w n Typed (reference w (rules w n) owner singleton)
  | follow (t : Ty) : Procedure w n Typed (follow w (rules w n) t)
  | call (name : String) (caller : Ty) : Procedure w n Typed (call w (rules w n) name caller)
  | subscription (t : Ty) : Procedure w n Typed (subscription (rules w n) t)
  | callArguments : Procedure w n (List Expr) (callArguments w (rules w n))
  | paramDefinitions (closing : String) : Procedure w n ParamDefinitions (paramDefinitions (rules w n) closing)
  /-- The second step of an expression, which writes it. -/
  | written (e : Expr) : Procedure w n Unit (ask w (.expr e))
  | statement : Procedure w n Ty (statement w (rules w n))
  | block : Procedure w n Ty (block w (rules w n))
  | declareLocal : Procedure w n Unit (declareLocal w (rules w n))
  | ifStatement : Procedure w n Ty (ifStatement w (rules w n))
  | whileStatement : Procedure w n Ty (whileStatement w (rules w n))
  | forStatement : Procedure w n Ty (forStatement w (rules w n))
  | matchStatement : Procedure w n Ty (matchStatement w (rules w n))
  | returnStatement : Procedure w n Ty (returnStatement w (rules w n))
  | awaitStatement : Procedure w n Unit (awaitStatement w (rules w n))
  | reassignment : Procedure w n Unit (reassignment w (rules w n))
  | enumeration : Procedure w n Unit (enumeration w (rules w n))
  | method (static : Bool) : Procedure w n Unit (method w (rules w n) static)
  | signal : Procedure w n Unit (signal w (rules w n))
  | property (static : Bool) : Procedure w n Unit (property w (rules w n) static)
  | declareProperty (name : String) (flag : PropertyFlag) :
      Procedure w n Unit (declareProperty w (rules w n) name flag)
  | innerClass (m : Nat) : Procedure w n Unit (innerClass w (classBodyWithin w (rules w n) m))
  | member (m : Nat) : Procedure w n Bool (member w (rules w n) (classBodyWithin w (rules w n) m))
  | classBodyWithin (m : Nat) : Procedure w n Unit (classBodyWithin w (rules w n) m)
  | classBody : Procedure w n Unit (classBody w (rules w n))
  | recover : Procedure w n Unit (recover w (rules w n))
  | scriptBody : Procedure w n Unit (scriptBody w (rules w n))

/-- **Every procedure leaves the stacks as they were.** -/
theorem Procedure.stacked (W : w.Stacks G) {n : Nat} (h : Procedure w n α x) : Keeps (stackCourse τ G) x := by
  have C := stackCourse_classLaws W
  have M := C.toMemberLaws
  have L := C.toLaws
  have H := RulesKeep.rules L n
  have K := C.whole H
  cases h with
  | endLine => exact .endLine L
  | type => exact .type L
  | expression => exact H.expressed L.logic
  | ternary => exact H.chosen L.logic
  | boolean => exact H.compared L.logic
  | arithmetic => exact H.arithmetic L.logic
  | sum => exact H.summed L.logic
  | dereference => exact H.dereference L.logic
  | value => exact H.value L.logic
  | lambda => exact H.lambda L.logic
  | grouped => exact H.grouped L.logic
  | reference owner singleton => exact H.referred L.logic owner singleton
  | follow t => exact H.followed L.logic t
  | call name caller => exact H.call L.logic name caller
  | subscription t => exact H.subscription L.logic t
  | callArguments => exact H.callArguments L.logic
  | paramDefinitions closing => exact H.paramDefinitions L.logic (Keeps.expect L.toMoves closing)
  | written e => exact L.ask _ rfl
  | statement => exact H.statement L.logic
  | block => exact H.blocked L.logic
  | declareLocal => exact H.declareLocal L.logic
  | ifStatement => exact H.ifStatement L.logic
  | whileStatement => exact H.whileStatement L.logic
  | forStatement => exact H.forStatement L.logic
  | matchStatement => exact H.matchStatement L.logic
  | returnStatement => exact H.returnStatement L.logic
  | awaitStatement => exact H.awaitStatement L.logic
  | reassignment => exact H.reassignment L.logic
  | enumeration => exact H.enumeration M.logic
  | method static => exact H.method M.logic static
  | signal => exact H.signal M.logic
  | property static => exact H.property M.logic static
  | declareProperty name flag => exact H.declareProperty M.logic name flag
  | innerClass m => exact innerClass_stacked W (K.classBodyWithin m)
  | member m => exact K.logic.member (y := pure ()) (Nat.le_refl 0) (K.classBodyWithin m)
  | classBodyWithin m => exact K.classBodyWithin m
  | classBody => exact .bind L (.roundsLeft L) K.classBodyWithin
  | recover => exact K.recover
  | scriptBody => exact K.logic.scriptBody

/-! ## Scripts -/

theorem classes_body (cs : List String) (w : Writer σ) : BodyInvariant (fun s : Reader σ => s.classes = cs) w where
  next s h := by
    unfold Reader.next
    split <;> exact h
  serve s q _ h := by rw [endState_atDesk]; exact h
  takePage s h := by rw [endState_atDesk]; exact h
  note _ _ _ h := h
  learn _ _ _ h := h
  use _ _ h := h

/-- What is read before the end of a script is asked for. -/
def upToEnd (w : Writer σ) (r : Rules σ) (scriptName : String) : ReadM σ Unit := do
  header w scriptName
  scriptBody w r

theorem script_eq (w : Writer σ) (r : Rules σ) (scriptName : String) : script w r scriptName = (do
      upToEnd w r scriptName
      ask w .endScript) := by
  simp only [script, upToEnd, bind_assoc]

/-- At the end of a script there is one page, and one class, the script's own. -/
theorem upToEnd_flat (W : w.Stacks G) {n : Nat} {name : String} (hc : s.classes = [])
    (hb : s.desk.pages.below = []) (h : upToEnd w (rules w n) name s = .ok a s') :
    s'.desk.pages.below = [] ∧ s'.classes = [(headerSays name s.upcoming).1] := by
  have L := stackCourse_laws W
  obtain ⟨_, s3, h3, h⟩ := bind_eq_ok h
  rw [header_eq] at h3
  obtain ⟨names, s1, h1, h3⟩ := bind_eq_ok h3
  obtain ⟨_, s2, h2, h3⟩ := bind_eq_ok h3
  have said : names = headerSays name s.upcoming := by
    have := headerNames_tells (w := w) name s
    unfold Goes at this
    rw [h1] at this
    exact this
  have before : s1.classes = [] := by
    have B := classes_body [] w
    have kept := keeping_goes (Keeps.headerNames B.laws (keeping_note B rfl) (fun _ _ h => h) name) hc
    unfold Goes at kept
    rw [h1] at kept
    exact kept
  have read := ok_stacked
    (Keeps.headerNames L (fun _ => Stacked.same rfl rfl rfl) (fun _ _ => .same rfl rfl rfl) name) h1
  obtain ⟨adding, pushed⟩ := startClass_pushes W h2
  rw [before] at pushed
  have rest := (ok_stacked (.endLine L) h3).trans (ok_stacked (Procedure.scriptBody.stacked W) h)
  refine ⟨?_, ?_⟩
  · obtain ⟨_, _, below, _⟩ := read.adding.trans (adding.trans rest.adding)
    rw [below, hb]
  · rw [rest.classes (by rw [pushed]; exact List.cons_ne_nil _ _), pushed, said]

end Read

/-- The state in which a run asks for the end of the script, if it gets there. -/
def beforeEnd (w : Writer σ) (name text : String) (desk : Desk σ) : Option (Reader σ) :=
  match (scan (text ++ "\n")).lexemes with
  | [] => none
  | first :: rest =>
    match Read.upToEnd w (Read.rules w (Read.depth (rest.length + 1))) name (startOf text desk first rest) with
    | .ok _ s => some s
    | .error _ _ => none

theorem beforeEnd_cons (w : Writer σ) (name : String) (desk : Desk σ) {first : Lexeme}
    {rest : List Lexeme} (h : (scan (text ++ "\n")).lexemes = first :: rest) :
    beforeEnd w name text desk = match Read.upToEnd w (Read.rules w (Read.depth (rest.length + 1))) name
          (startOf text desk first rest) with
      | .ok _ s => some s
      | .error _ _ => none := by
  unfold beforeEnd
  simp only [h]

/-- The stacks at the end of a script, which a run reaches unless it fails before: one page, so that the
joining of pages changes nothing, and the script's own class. -/
def EndsFlat (w : Writer (Pages τ)) (name text : String) (desk : Desk (Pages τ)) : Prop :=
  ((run w name text desk).fault = none → (beforeEnd w name text desk).isSome = true) ∧
    ∀ s, beforeEnd w name text desk = some s → run w name text desk = .ofResult (Read.ask w .endScript s) ∧
        s.desk.pages.below = [] ∧ Page.flush s.desk = .ok () s.desk ∧ s.classes = [(headerSays name (wordsOf text)).1]

theorem endsFlat_of_stacks {w : Writer (Pages τ)} (W : w.Stacks G) (name text : String)
    (desk : Desk (Pages τ)) (hd : desk.pages.below = []) : EndsFlat w name text desk := by
  unfold EndsFlat
  cases hl : (scan (text ++ "\n")).lexemes with
  | nil =>
    simp [run_nil w name desk hl, beforeEnd, hl]
  | cons first rest =>
    rw [beforeEnd_cons w name desk hl, run_cons w name desk hl, Read.script_eq, Read.bind_apply]
    cases hs : Read.upToEnd w (Read.rules w (Read.depth (rest.length + 1))) name
        (startOf text desk first rest) with
    | error e s =>
      constructor
      · intro h
        cases h
      · intro s' h
        cases h
    | ok a s =>
      refine ⟨fun _ => rfl, fun s' h => ?_⟩
      cases h
      obtain ⟨below, classes⟩ := Read.upToEnd_flat W rfl hd hs
      refine ⟨rfl, below, ?_, ?_⟩
      · show EStateM.Result.ok () { s.desk with
          pages := { s.desk.pages with page := Page.flushPages s.desk.pages.below s.desk.pages.page, below := [] } } = _
        rw [below, Page.flushPages, ← below]
      · rw [classes, wordsOf, hl]
        rfl

/-- **Pages and classes are used as stacks.** A procedure that ends well, from any state of a reader that
is in a class, leaves the classes and the pages below as they were, and only adds to the page that is
written to. At the end of a script there is just one page and one class. -/
theorem procedures_keep_stacks (s : Settings) :
    ((∀ n α x, Read.Procedure (CSharp.writer s) n α x → ∀ r a r', r.classes ≠ [] → x r = .ok a r' →
        r.desk.pages.Adds r'.desk.pages ∧ r'.classes = r.classes) ∧
      ∀ name text desk, desk.pages.below = [] → EndsFlat (CSharp.writer s) name text desk) ∧
    (∀ n α x, Read.Procedure (CPlusPlus.writer s) n α x → ∀ r a r', r.classes ≠ [] → x r = .ok a r' →
        r.desk.pages.Adds r'.desk.pages ∧ r'.classes = r.classes) ∧
      ∀ name text desk, desk.pages.below = [] → EndsFlat (CPlusPlus.writer s) name text desk := by
  refine ⟨⟨fun n α x hx r a r' hr h => ?_, endsFlat_of_stacks (CSharp.writer_stacks s)⟩,
    fun n α x hx r a r' hr h => ?_, endsFlat_of_stacks (CPlusPlus.writer_stacks s)⟩
  · have stacked := Read.ok_stacked (hx.stacked (CSharp.writer_stacks s)) h
    exact ⟨stacked.pages, stacked.classes hr⟩
  · have stacked := Read.ok_stacked (hx.stacked (CPlusPlus.writer_stacks s)) h
    exact ⟨stacked.pages, stacked.classes hr⟩

/-- Members with an inner class, a property with accessors and a chain of comparisons. -/
theorem procedures_keep_stacks_members :
    let text := "class A extends B:\n\tvar x:\n\t\tget:\n\t\t\treturn 1\nfunc f(y):\n\tmatch y:\n\t\t1:\n\t\t\tg()\n"
    let r := readerAt ["S"] ⟨{}, #[], { CSharp.start with page := "p", below := ["q"] }⟩ text
    (∃ r', Read.classBody (CSharp.writer {}) (Read.rules (CSharp.writer {}) 30) r = .ok () r' ∧
      r.desk.pages.Adds r'.desk.pages ∧ r'.classes = ["S"]) ∧
    (run (CPlusPlus.writer {}) "S" "class A:\n\tvar x" ⟨{}, #[], CPlusPlus.start "S"⟩).fault = none ∧
      EndsFlat (CPlusPlus.writer {}) "S" "class A:\n\tvar x" ⟨{}, #[], CPlusPlus.start "S"⟩ := by
  intro text r
  have ends : Read.endsIn (fun _ => true) (Read.classBody (CSharp.writer {}) (Read.rules (CSharp.writer {}) 30) r) =
      true := by decide +kernel
  obtain ⟨a, r', h, -⟩ := Read.exists_of_endsIn ends
  obtain ⟨pages, same⟩ := (procedures_keep_stacks {}).1.1 30 Unit _ .classBody r a r' (List.cons_ne_nil _ _) h
  exact ⟨⟨r', h, pages, same⟩, by decide +kernel, (procedures_keep_stacks {}).2.2 "S" _ _ rfl⟩

end GdScribe
