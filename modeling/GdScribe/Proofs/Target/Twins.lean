import GdScribe.Proofs.Target.Likeness

/-!
# Two desks side by side

Requests that are alike, at desks that are alike, leave desks that are alike. Nothing is said of logs.

Principal result: `CSharp.serve_meets`.
-/

namespace GdScribe

open EStateM (Result)
open Read (RequestAlike)

variable {τ α β : Type}

/-- Desks with related texts on their pages and related class tables. -/
structure DeskAlike (text : String → String → Prop) (own : τ → τ → Prop)
    (table : ClassTable → ClassTable → Prop) (d d' : Desk (Pages τ)) : Prop where
  classes : table d.classes d'.classes
  level : d.pages.level = d'.pages.level
  page : text d.pages.page d'.pages.page
  below : List.Forall₂ text d.pages.below d'.pages.below
  own : own d.pages.own d'.pages.own

/-- Outcomes that both end well or both end in the same fault. -/
def Meets {σ : Type} (D : Desk σ → Desk σ → Prop) (R : α → β → Prop) :
    Result Fault (Desk σ) α → Result Fault (Desk σ) β → Prop
  | .ok a d, .ok b d' => R a b ∧ D d d'
  | .error e d, .error f d' => e = f ∧ D d d'
  | _, _ => False

section twins

variable {text : String → String → Prop} {own : τ → τ → Prop} {table : ClassTable → ClassTable → Prop}

theorem Page.takePage_meets (empty : text "" "") {d d' : Desk (Pages τ)} (h : DeskAlike text own table d d') :
    Meets (DeskAlike text own table) text (takePage d) (takePage d') := by
  have head : ∀ {as bs : List String}, List.Forall₂ text as bs → text (as.headD "") (bs.headD "")
    | _, _, .nil => empty
    | _, _, .cons h _ => h
  exact ⟨h.page, h.classes, h.level, head h.below, List.forall₂_drop 1 h.below, h.own⟩

theorem Meets.bind {σ : Type} {D : Desk σ → Desk σ → Prop} {Q : α → α → Prop} {R : β → β → Prop}
    {x y : DeskM σ α} {f g : α → DeskM σ β} {d d' : Desk σ} (m : Meets D Q (x d) (y d'))
    (hf : ∀ a b, Q a b → ∀ d d', D d d' → Meets D R (f a d) (g b d')) : Meets D R ((x >>= f) d) ((y >>= g) d') := by
  show Meets D R (EStateM.bind x f d) (EStateM.bind y g d')
  unfold EStateM.bind
  cases hx : x d <;> cases hy : y d' <;> rw [hx, hy] at m
  · exact hf _ _ m.1 _ _ m.2
  · exact m.elim
  · exact m.elim
  · exact m

/-- Meeting outcomes, as a relation between actions. -/
def Likeness.twins (refl : ∀ a, text a a) (append : ∀ {a b a' b'}, text a b → text a' b' → text (a ++ a') (b ++ b'))
    (alike : ∀ {c d}, table c d → c.Alike d) : Likeness τ text own where
  Holds R x y := ∀ d d', DeskAlike text own table d d' → Meets (DeskAlike text own table) R (x d) (y d')
  turns := True
  scopes := True
  owns := fun _ _ => True
  pure h _ _ hd := ⟨h, hd⟩
  throw _ _ _ hd := ⟨rfl, hd⟩
  bind _ hx hf d d' hd := (hx d d' hd).bind hf
  write h _ _ hd := ⟨rfl, { hd with page := append hd.page h }⟩
  trace _ _ _ _ hd := ⟨rfl, { hd with }⟩
  shift _ n _ _ hd := ⟨rfl, { hd with level := congrArg (· + n) hd.level }⟩
  level _ _ hd := ⟨hd.level, hd⟩
  known _ _ hd := ⟨hd.own, hd⟩
  learn _ h _ _ hd := ⟨rfl, { hd with own := h _ _ hd.own }⟩
  classes _ _ hd := ⟨alike hd.classes, hd⟩
  page _ _ hd := ⟨hd.page, hd⟩
  onPage h d d' hd := by
    refine Meets.bind (Q := Eq) ⟨rfl, { hd with page := refl _, below := .cons hd.page hd.below }⟩ ?_
    exact fun _ _ _ d d' hd => (h d d' hd).bind fun _ _ _ _ _ hd => Page.takePage_meets (refl _) hd
  openPage _ _ _ hd := ⟨rfl, { hd with page := refl _, below := .cons hd.page hd.below }⟩
  takePage _ _ _ hd := Page.takePage_meets (refl _) hd
  flush _ _ _ hd := by
    have joined : ∀ {as bs : List String}, List.Forall₂ text as bs → ∀ {a b}, text a b →
        text (Page.flushPages as a) (Page.flushPages bs b) := by
      intro as bs hs
      induction hs with
      | nil => exact fun h => h
      | cons h _ ih => exact fun hab => ih (append h hab)
    exact ⟨rfl, { hd with page := joined hd.below hd.page, below := .nil }⟩

end twins

namespace CSharp

/-- **Requests that are alike, at desks that are alike.** -/
theorem serve_meets {text contents result : String → String → Prop} (W : Wording text contents result)
    {table : ClassTable → ClassTable → Prop} (alike : ∀ {c d}, table c d → c.Alike d) (s : Target.Settings)
    {q q' : Request} (h : RequestAlike text contents q q') (clear : SameAccessors q q')
    {d d' : Desk (Pages State)} (hd : DeskAlike text (StateAlike text result) table d d') :
    Meets (DeskAlike text (StateAlike text result) table) Eq (serve s q d) (serve s q' d') :=
  serve_alike W (.twins W.refl W.append alike) s (fun _ _ _ => trivial) h clear (fun _ => trivial)
    (fun _ _ _ => trivial) (fun _ => trivial) d d' hd

end CSharp

end GdScribe
