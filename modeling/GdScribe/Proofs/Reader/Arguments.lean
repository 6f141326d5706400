import GdScribe.Proofs.Reader.Values
import Mathlib.Data.List.Forall2

/-!
# Reading arguments

The arguments of a call, for any target: items with commas between them, up to the closing mark.

Principal results: `items_rounds`, for every list of items in brackets, and `callArguments_of_items`.
-/

namespace GdScribe.Read

open Phrase List

/-- The words of items, with commas between them. -/
def commaWords : List (List Word) → List Word
  | [] => []
  | [x] => x
  | x :: y :: xs => x ++ mark ',' :: commaWords (y :: xs)

variable {σ ι : Type} {wr : Writer σ} {r : Rules σ} {a b : View σ}
variable {k : TokenKind} {v : String} {w : Word} {ws : List Word}

theorem closed {x : String} (h : a.words = (k, x) :: w :: ws) :
    Leads (do return !(← expect x)) a { a with words := w :: ws } (· = false) :=
  (Leads.expect_hit h).bindEq (.pure rfl)

/-- An item can be read: it starts as a phrase does, and before a word that ends an expression it is
read up to this word. -/
structure ItemReads (r : Rules σ) (a : View σ) (item : List Word) (Q : Expr → Prop) : Prop where
  starts : ∃ w ws, item = w :: ws ∧ Starts w
  reads : ∀ w ws, EndsExpression w → Leads.isLine w.1 = false →
    Leads r.expression { a with words := item ++ w :: ws } { a with words := w :: ws } fun x => Q x.2

/-- A mark that closes a list of items. -/
structure Closes (c : Word) : Prop where
  ends : EndsExpression c
  notLine : Leads.isLine c.1 = false
  isClosing : c.2 ∈ [")", "]", "\x7d"]

variable {β : Type} {words : ι → List Word} {c : Word} (hc : Closes c)

theorem endLine_then (y : β) (h : a.words = (k, v) :: ws) (hk : Leads.isLine k = false) (hput : Leads.Quiet wr a) :
    Leads (do endLine wr; return y) a a (· = y) :=
  (Leads.endLine_here h hk hput).bind fun _ _ => .pure rfl

variable (items : List ι) (h : ∀ i ∈ items, ∃ w ws, words i = w :: ws ∧ Starts w)

include hc h

theorem items_start (rest : List Word) :
    ∃ u us, commaWords (items.map words) ++ c :: rest = u :: us ∧ Leads.isLine u.1 = false := by
  cases items with
  | nil => exact ⟨c, rest, rfl, hc.notLine⟩
  | cons i items =>
    obtain ⟨u, us, hi, hs⟩ := h i mem_cons_self
    cases items <;> rw [map_cons] <;> simp only [hi] <;>
      exact ⟨u, _, rfl, hs.notLine⟩

/-- After an item stands a comma or the closing mark, and a comma is passed. -/
theorem after_item (i : ι) (rest : List Word) :
    ∃ u us, commaWords ((i :: items).map words) ++ c :: rest = words i ++ u :: us ∧
      EndsExpression u ∧ Leads.isLine u.1 = false ∧
      (commaWords (items.map words) ++ c :: rest).length ≤ (u :: us).length ∧
      ∀ a, Leads.Quiet wr a → ∀ y : β, Leads (do let _ ← expect ","; endLine wr; return y) { a with words := u :: us }
        { a with words := commaWords (items.map words) ++ c :: rest } (· = y) := by
  cases items with
  | nil =>
    refine ⟨c, rest, rfl, hc.ends, hc.notLine, le_refl _, fun a hput y => ?_⟩
    have other : c.2 ≠ "," := fun h => by simpa [h] using hc.isClosing
    exact (Leads.expect_miss rfl other).bindEq (endLine_then y rfl hc.notLine hput)
  | cons j items =>
    obtain ⟨u, us, first, hline⟩ := items_start hc (j :: items) h rest
    refine ⟨mark ',', _, by rw [map_cons, map_cons, commaWords, append_assoc]; rfl, by decide, rfl, Nat.le_succ _,
      fun a hput y => (Leads.expect_before rfl).bindEq (endLine_then y first hline hput)⟩

variable {γ : Type} (V : γ → View σ) (F : γ → ι → γ) (N : γ → β → Prop) (B : β → ReadM σ (ForInStep β))

/-- **Items in a row**, up to a closing mark: by induction on the items. The views between them are told by what was
made of the items so far. -/
theorem items_rounds (w : Word) (ws : List Word) (hput : ∀ g, Leads.Quiet wr (V g))
    (step : ∀ i ∈ items, ∀ g b u us rest, N g b → EndsExpression u → Leads.isLine u.1 = false →
      (∀ y : ForInStep β, Leads (do let _ ← expect ","; endLine wr; return y) { V (F g i) with words := u :: us }
        { V (F g i) with words := rest } (· = y)) →
      Leads (B b) { V g with words := words i ++ u :: us } { V (F g i) with words := rest }
        fun x => ∃ b', x = .yield b' ∧ N (F g i) b') :
    ∀ g b, N g b → Rounds (do return !(← expect c.2)) B (N (items.foldl F g)) b
      { V g with words := commaWords (items.map words) ++ c :: w :: ws }
      { V (items.foldl F g) with words := w :: ws } := by
  induction items with
  | nil => exact fun g b hb => .done hb (closed rfl)
  | cons i items ih =>
    intro g b hb
    obtain ⟨⟨k, v⟩, more, hi, hs⟩ := h i mem_cons_self
    have others := fun j hj => h j (mem_cons_of_mem i hj)
    obtain ⟨u, us, hshape, hu, hline, fewer, pass⟩ := after_item hc items others i (w :: ws)
    rw [hshape]
    refine .step (N (F g i)) ((Leads.expect_miss (by rw [hi]; rfl) fun hv => hs.notClosing
        (by rw [hv]; exact hc.isClosing)).bindEq (.pure rfl))
      (step i mem_cons_self g b u us _ hb hu hline (pass _ (hput _))) (Nat.lt_of_le_of_lt fewer ?_)
      fun b' hb' => ih others (fun j hj => step j (mem_cons_of_mem i hj)) _ b' hb'
    rw [hi, length_append, length_cons (a := (k, v))]
    omega

omit hc h

variable {Q : ι → Expr → Prop}

/-- **Arguments.** Items that can be read one by one are read in a row. -/
theorem callArguments_of_items (w : Word) (ws : List Word) (items : List ι)
    (h : ∀ i ∈ items, ItemReads r a (words i) (Q i)) (hput : Leads.Quiet wr a) :
    Leads (callArguments wr r)
      { a with words := commaWords (items.map words) ++ mark ')' :: w :: ws } { a with words := w :: ws }
      fun es => Forall₂ Q items es := by
  have closes : Closes (mark ')') := ⟨by decide, rfl, by decide⟩
  have rounds := items_rounds closes items (fun i hi => (h i hi).starts) (fun _ : List ι => a) (fun g i => i :: g)
    (List.Forall₂ Q)
    (fun acc => do
      let x ← r.expression
      let _ ← expect ","
      endLine wr
      return .yield (x.2 :: acc)) w ws (fun _ => hput)
    (fun i hi g acc u us rest hacc hu hline pass => ((h i hi).reads u us hu hline).bind fun x hx =>
      (pass (.yield (x.2 :: acc))).mono fun _ hy => ⟨_, hy, .cons hx hacc⟩) [] [] .nil
  refine rounds.whileMoving.bind fun es hes => .pure ?_
  rw [foldl_flip_cons_eq_append, append_nil, map_id', ← reverse_reverse es] at hes
  exact forall₂_reverse_iff.mp hes

end GdScribe.Read
