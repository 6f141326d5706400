import GdScribe.Proofs.Reader.View
import GdScribe.Proofs.Target.Spelling
import GdScribe.Target.CSharp.Writer

/-!
# What a target adds to its page

* `NoBreak`: texts without a line end, which are written as they are at any indentation.

Principal results: `Prints.bind`, and `CSharp.put_prints` for texts without a line end.
-/

namespace GdScribe

open List
open Read (Serves)

variable {σ τ α β : Type}

/-- A text without a line end. -/
def NoBreak (s : String) : Prop := '\n' ∉ s.toList

instance (s : String) : Decidable (NoBreak s) := inferInstanceAs (Decidable (¬ _))

theorem Over.noBreak {s : String} (h : Plain s) : NoBreak s := fun hn => (h '\n' hn).2 rfl

theorem noBreak_iff {s : String} : NoBreak s ↔ Over (· ≠ '\n') s :=
  ⟨fun h _ hc he => h (he ▸ hc), fun h hn => h _ hn rfl⟩

theorem NoBreak.append {s t : String} (hs : NoBreak s) (ht : NoBreak t) : NoBreak (s ++ t) :=
  noBreak_iff.mpr ((noBreak_iff.mp hs).append (noBreak_iff.mp ht))

variable {l : List String}

theorem NoBreak.join (h : ∀ s ∈ l, NoBreak s) : NoBreak (String.join l) :=
  noBreak_iff.mpr (.join fun s hs => noBreak_iff.mp (h s hs))

theorem NoBreak.intercalate (h : ∀ x ∈ l, NoBreak x) : NoBreak (String.intercalate ", " l) :=
  noBreak_iff.mpr (.intercalate (by decide) fun x hx => noBreak_iff.mp (h x hx))

theorem Page.indented_eq {s : String} (h : NoBreak s) (level : Int) : indented level s = s :=
  Text.replaceAll_of_not_mem _ (x := '\n') (by decide) h

/-! ## Requests in a row -/

namespace Read.Serves

variable {t t' t'' : ClassTable} {p p' p'' : σ} {Q : α → Prop} {R : β → Prop}

theorem pure {r : α} (h : Q r) : Serves (pure r : DeskM σ α) t p t p Q :=
  fun d ht hp => ⟨r, d, rfl, h, ht, hp, rfl⟩

variable {x : DeskM σ α} {f : α → DeskM σ β}

theorem bind (hx : Serves x t p t' p' Q)
    (hf : ∀ r, Q r → Serves (f r) t' p' t'' p'' R) : Serves (x >>= f) t p t'' p'' R := by
  intro d ht hp
  obtain ⟨r, d', hr, hq, ht', hp', hl⟩ := hx d ht hp
  obtain ⟨r', d'', hr', hq', ht'', hp'', hl'⟩ := hf r hq d' ht' hp'
  exact ⟨r', d'', by rw [bind_ok hr, hr'], hq', ht'', hp'', hl'.trans hl⟩

theorem bindEq {r : α} (hx : Serves x t p t' p' (· = r))
    (hf : Serves (f r) t' p' t'' p'' R) : Serves (x >>= f) t p t'' p'' R :=
  hx.bind fun _ h => h ▸ hf

theorem mapM {f : β → DeskM σ α} {g : β → α} {l : List β} (h : ∀ b ∈ l, Serves (f b) t p t p (· = g b)) :
    Serves (l.mapM f) t p t p (· = l.map g) := by
  induction l with
  | nil => exact .pure rfl
  | cons b bs ih =>
    obtain ⟨hb, hbs⟩ := forall_mem_cons.mp h
    rw [mapM_cons]
    exact hb.bindEq ((ih hbs).bindEq (.pure rfl))

theorem look {f : Desk σ → α} (h : ∀ d, d.classes = t → d.pages = p → Q (f d)) :
    Serves (do return f (← get) : DeskM σ α) t p t p Q :=
  fun d ht hp => ⟨f d, d, rfl, h d ht hp, ht, hp, rfl⟩

variable {pages q : Pages τ}

theorem level : Serves (Page.level : PageM τ Int) t pages t pages (· = pages.level) :=
  .look fun _ _ hp => by rw [hp]

theorem modify_pages {f : σ → σ} :
    Serves (modify fun d => { d with pages := f d.pages } : DeskM σ PUnit) t p t (f p) :=
  fun d ht hp => ⟨⟨⟩, { d with pages := f d.pages }, rfl, trivial, ht, by rw [← hp], rfl⟩

theorem trace (line : String) : Serves (Page.trace line : PageM τ Unit) t pages t pages :=
  fun d ht hp => ⟨⟨⟩, d.note (.writeStep line), rfl, trivial, ht, hp, printed_note _ rfl⟩

theorem flush (h : q.below = []) : Serves (Page.flush : PageM τ Unit) t q t q := by
  have same : { q with page := Page.flushPages q.below q.page, below := [] } = q := by
    rw [h, Page.flushPages, ← h]
  have flush := modify_pages (t := t) (p := q)
    (f := fun q => { q with page := Page.flushPages q.below q.page, below := [] })
  rwa [same] at flush

theorem takePage {base : String} {rest : List String} (h : q.below = base :: rest) :
    Serves (Page.takePage : PageM τ String) t q t { q with page := base, below := rest } (· = q.page) := by
  intro d hd hp
  refine ⟨d.pages.page, { d with pages := _ }, rfl, by rw [hp], hd, ?_, rfl⟩
  rw [hp, h]
  rfl

end Read.Serves

/-! ## Adding to the page -/

/-- With the class table `t`, an action adds exactly `text` to the page. -/
def Prints (t : ClassTable) (x : PageM τ Unit) (text : String) : Prop :=
  ∀ p : Pages τ, Serves x t p t { p with page := p.page ++ text }

namespace Prints

variable {t : ClassTable} {x y : PageM τ Unit} {a b : String}

theorem nothing : Prints t (pure () : PageM τ Unit) "" := fun p => by
  have h : { p with page := p.page ++ "" } = p := by rw [String.append_empty]
  rw [h]
  exact .pure trivial

theorem bind (hx : Prints t x a) (hy : Prints t y b) : Prints t (do x; y) (a ++ b) := fun p => by
  have h := hy { p with page := p.page ++ a }
  rw [String.append_assoc] at h
  exact (hx p).bind fun _ _ => h

theorem unique [Inhabited τ] (ha : Prints t x a) (hb : Prints t x b) : a = b := by
  let d : Desk (Pages τ) := ⟨t, #[], { level := 0, page := "", below := [], own := default }⟩
  obtain ⟨_, d1, h1, -, -, hp1, -⟩ := ha d.pages d rfl rfl
  obtain ⟨_, d2, h2, -, -, hp2, -⟩ := hb d.pages d rfl rfl
  rw [h1] at h2
  cases h2
  have page := congrArg Pages.page (hp1.symm.trans hp2)
  simpa using page

theorem write (text : String) : Prints t (Page.write text : PageM τ Unit) text := fun _ =>
  Serves.modify_pages (f := fun p : Pages τ => { p with page := p.page ++ text })

theorem onPage (h : Prints t x a) (p : Pages τ) : Serves (Page.onPage x) t p t p (· = a) := by
  have opened := Serves.modify_pages (t := t) (p := p)
    (f := fun p : Pages τ => { p with page := "", below := p.page :: p.below })
  have taken := Serves.takePage (t := t) (q := { p with page := "" ++ a, below := p.page :: p.below }) rfl
  refine opened.bind fun _ _ => (h _).bind fun _ _ => ?_
  exact taken

end Prints

section arguments

variable {d : Dialect τ} {c : ClassTable} {args : List Expr} {texts : List String}
  (comma : Prints c (d.put ", ") ", ") (h : Forall₂ (fun e => Prints c (d.expr e)) args texts)

include comma h

theorem moreArguments_prints : Prints c (d.moreArguments args) (.join (texts.map (", " ++ ·))) := by
  induction h with
  | nil => exact .nothing
  | cons he _ ih =>
    rw [map_cons, String.join_cons, String.append_assoc, Dialect.moreArguments]
    exact comma.bind (he.bind ih)

theorem arguments_prints : Prints c (d.arguments args) (String.intercalate ", " texts) := by
  cases h with
  | nil => exact .nothing
  | cons he hes =>
    rw [intercalate_cons, Dialect.arguments]
    exact he.bind (moreArguments_prints comma hes)

end arguments

namespace CSharp

open Target

theorem put_prints {t : ClassTable} {text : String} (h : NoBreak text) : Prints t (put text) text := by
  intro p
  refine Serves.level.bindEq ?_
  rw [Page.indented_eq h]
  exact (Prints.write text p).bind fun _ _ => .trace _

end CSharp

end GdScribe
