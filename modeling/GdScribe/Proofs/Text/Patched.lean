import GdScribe.Proofs.Text.Replace
import GdScribe.Target.Dialect

/-!
# Texts that differ in some parts

Two texts of generated code are compared that are the same but for some parts of the first, each of
which has a counterpart in the second.

* `Marked`: texts in which a mark occurs, if there is one.

Principal results: `Patched.foldl` — a walk over both texts with a state; `Patched.swapFirst` — the first
of some characters is replaced in both; `Patched.flatMap` — so is each character.
-/

namespace GdScribe

open Target List

/-- The second text is the first with other parts in the place of some of its parts. -/
inductive Patched (B : List Char → List Char → Prop) : List Char → List Char → Prop
  | nil : Patched B [] []
  | keep (c : Char) {s t : List Char} (h : Patched B s t) : Patched B (c :: s) (c :: t)
  | part {u v s t : List Char} (hp : B u v) (h : Patched B s t) : Patched B (u ++ s) (v ++ t)

/-- Texts that differ in parts. -/
abbrev PatchedText (B : List Char → List Char → Prop) (a b : String) : Prop := Patched B a.toList b.toList

/-- What a text has to have in it if it has a part that may differ. -/
def Marked (mark : Option (List Char)) (s : List Char) : Prop := ∃ x, mark = some x ∧ x <:+: s

namespace Patched

variable {B : List Char → List Char → Prop} {s t s' t' : List Char}

theorem refl : ∀ s, Patched B s s
  | [] => .nil
  | c :: s => .keep c (refl s)

theorem append (h : Patched B s t) (h' : Patched B s' t') : Patched B (s ++ s') (t ++ t') := by
  induction h with
  | nil => exact h'
  | keep c _ ih => exact .keep c ih
  | part hp _ ih =>
    rw [append_assoc, append_assoc]
    exact .part hp ih

theorem single {u v : List Char} (hp : B u v) : Patched B u v := by
  simpa using part hp .nil

theorem eq_of_not_marked {mark : Option (List Char)} (hB : ∀ {u v}, B u v → Marked mark u)
    (h : Patched B s t) (hs : ¬ Marked mark s) : s = t := by
  induction h with
  | nil => rfl
  | keep c _ ih => rw [ih fun ⟨x, hx, hi⟩ => hs ⟨x, hx, infix_cons hi⟩]
  | part hp _ _ =>
    obtain ⟨x, hx, hi⟩ := hB hp
    exact absurd ⟨x, hx, hi.trans (prefix_append ..).isInfix⟩ hs

theorem eq_nil_iff (hB : ∀ {u v}, B u v → u ≠ [] ∧ v ≠ []) (h : Patched B s t) : s = [] ↔ t = [] := by
  cases h with
  | nil => rfl
  | keep c _ => simp
  | part hp _ => simp [hB hp]

theorem flatMap {f : Char → List Char} (hB : ∀ {u v}, B u v → Patched B (u.flatMap f) (v.flatMap f))
    (h : Patched B s t) : Patched B (s.flatMap f) (t.flatMap f) := by
  induction h with
  | nil => exact .nil
  | keep c _ ih => exact (refl (f c)).append ih
  | part hp _ ih =>
    rw [flatMap_append, flatMap_append]
    exact (hB hp).append ih

theorem foldl {α : Type} {R : α → α → Prop} {f g : α → Char → α} (h : Patched B s t)
    (step : ∀ a b c, R a b → R (f a c) (g b c))
    (part : ∀ {u v}, B u v → ∀ a b, R a b → R (u.foldl f a) (v.foldl g b)) :
    ∀ a b, R a b → R (s.foldl f a) (t.foldl g b) := by
  induction h with
  | nil => exact fun _ _ h => h
  | keep c _ ih => exact fun a b h => ih _ _ (step a b c h)
  | part hp _ ih =>
    intro a b h
    rw [foldl_append, foldl_append]
    exact ih _ _ (part hp a b h)

/-- A character that the parts do not have is replaced where it first stands. -/
theorem swapFirst {x : Char} (hB : ∀ {u v}, B u v → x ∉ u ∧ x ∉ v) {new new' : List Char}
    (hn : Patched B new new') (h : Patched B s t) : Patched B (Text.swapFirst x new s) (Text.swapFirst x new' t) := by
  have beyond (new s : List Char) {u : List Char} (hu : x ∉ u) :
      Text.swapFirst x new (u ++ s) = u ++ Text.swapFirst x new s := by
    induction u with
    | nil => rfl
    | cons c u ih =>
      rw [cons_append, Text.swapFirst, if_neg fun hc : c = x => hu (hc ▸ .head _),
        ih fun h => hu (mem_cons_of_mem c h), cons_append]
  induction h with
  | nil => exact .nil
  | keep c h ih =>
    rw [Text.swapFirst, Text.swapFirst]
    split
    · exact hn.append h
    · exact .keep c ih
  | part hp _ ih =>
    rw [beyond _ _ (hB hp).1, beyond _ _ (hB hp).2]
    exact .part hp ih

end Patched

end GdScribe
