import GdScribe.Script.History
import Mathlib.Data.List.Forall2

/-!
# Where members stand

The classes around a line, by the indentation of the lines so far, and by the levels at which a reader
goes on reading them.

* `Standing`, `standing`: the indentation of the last line of a history, and the classes around it.
* `Placed`: a reader with some classes open follows the indentation: every class around the last line
  is open, and lines leave a class not before they leave its level.
* `Descends`: what the moves of a reader inside a member do to its level and to the standing.

Principal result: `Placed.owners`.
-/

namespace GdScribe

open List
open List (SublistForall₂)

/-- Where the last line stands. -/
structure Standing where
  indent : Nat := 0
  /-- Whether nothing went deeper on the line, and no level counts again that it has left. -/
  aligned : Bool := false
  /-- The inner classes around the line with their own indentation, innermost first. A class that a
  `pass` ends is none of them. -/
  nest : List (String × Nat) := []
  deriving DecidableEq, Repr

/-- Where a line stands after one more note. -/
def Standing.step (p : Standing) : Note → Standing
  | .line i => { indent := i, aligned := true, nest := p.nest.filter (·.2 < i) }
  | .deeper => { p with aligned := false }
  | .resumed level => { p with aligned := p.aligned && decide (level ≤ p.indent) }
  | .opened name _ => if p.aligned then { p with nest := (name, p.indent) :: p.nest } else p
  | .skipped => { p with nest := p.nest.tail }
  | .panicked => { p with aligned := false, nest := [] }
  | _ => p

/-- Where the last line of a history stands. -/
def standing (history : List Note) : Standing := history.foldr (fun n p => p.step n) {}

/-- Where the line of the last member stands. -/
def memberStanding : List Note → Standing
  | [] => {}
  | .member _ :: h => standing h
  | _ :: h => memberStanding h

/-! ## Open classes -/

/-- A class around a line is the open class of that name: its level is at most one more than its
indentation, and has not been left. -/
def OpenAs (level : Nat) (c o : String × Nat) : Prop := c.1 = o.1 ∧ o.2 ≤ c.2 + 1 ∧ o.2 ≤ level

/-- Every class around the last line is open, innermost first, and the level that counts is at most the
indentation. `around` are the open classes with the levels of their members. -/
structure Placed (around : List (String × Nat)) (level : Nat) (p : Standing) : Prop where
  level_le : p.aligned = true → level ≤ p.indent
  nested : SublistForall₂ (OpenAs level) p.nest around

/-- Every open class has a level for each class around it and one for itself. -/
def Deep : List (String × Nat) → Prop
  | [] => True
  | (_, level) :: rest => rest.length < level ∧ Deep rest

section lists

variable {α β : Type} {R S : α → β → Prop} {l l' : List α} {m : List β}

theorem SublistForall₂.of_sublist (h : SublistForall₂ R l m) (hs : l'.Sublist l) : SublistForall₂ R l' m := by
  induction h generalizing l' with
  | nil =>
    rw [sublist_nil.mp hs]
    exact .nil
  | cons hr _ ih =>
    cases hs with
    | cons _ hs => exact .cons_right (ih hs)
    | cons_cons _ hs => exact .cons hr (ih hs)
  | cons_right _ ih => exact .cons_right (ih hs)

theorem SublistForall₂.imp (h : SublistForall₂ R l m) (hi : ∀ a ∈ l, ∀ b, R a b → S a b) : SublistForall₂ S l m := by
  induction h with
  | nil => exact .nil
  | cons hr _ ih =>
    refine .cons (hi _ mem_cons_self _ hr) (ih fun a ha b => ?_)
    exact hi a (.tail _ ha) b
  | cons_right _ ih => exact .cons_right (ih hi)

theorem SublistForall₂.tail (h : SublistForall₂ R l m) : SublistForall₂ R l.tail m.tail := by
  cases h with
  | nil => exact .nil
  | cons _ h => exact h
  | cons_right h => exact SublistForall₂.of_sublist h (tail_sublist l)

theorem SublistForall₂.of_cons_right {b : β} (h : SublistForall₂ R l (b :: m)) (hb : ∀ a, ¬ R a b) :
    SublistForall₂ R l m := by
  cases h with
  | nil => exact .nil
  | cons hr _ => exact absurd hr (hb _)
  | cons_right h => exact h

theorem SublistForall₂.forall₂ (h : SublistForall₂ R l m) (hl : m.length ≤ l.length) : Forall₂ R l m := by
  obtain ⟨k, hk, hs⟩ := sublistForall₂_iff.mp h
  rw [← hs.eq_of_length_le (hk.length_eq ▸ hl)]
  exact hk

end lists

namespace Placed

variable {around : List (String × Nat)} {level : Nat} {p : Standing} {name : String}

theorem left {own : Nat} (h : Placed ((name, own) :: around) level p) (hl : level < own) : Placed around level p := by
  refine ⟨h.level_le, SublistForall₂.of_cons_right h.nested fun c hf => ?_⟩
  have : own ≤ level := hf.2.2
  omega

theorem skipped (h : Placed around level p) : Placed around.tail level (p.step .skipped) :=
  ⟨h.level_le, SublistForall₂.tail h.nested⟩

theorem panicked (p : Standing) (level : Nat) : Placed [] level (p.step .panicked) := ⟨nofun, .nil⟩

theorem opened (h : Placed around level p) (name base : String) :
    Placed ((name, level + 1) :: around) (level + 1) ((p.step (.opened name base)).step .deeper) := by
  have deeper : SublistForall₂ (OpenAs (level + 1)) p.nest around :=
    SublistForall₂.imp h.nested fun _ _ _ hf => ⟨hf.1, hf.2.1, Nat.le_succ_of_le hf.2.2⟩
  refine ⟨nofun, ?_⟩
  cases ha : p.aligned with
  | false =>
    simp only [Standing.step, ha]
    exact .cons_right deeper
  | true =>
    simp only [Standing.step, ha]
    exact .cons ⟨rfl, Nat.succ_le_succ (h.level_le ha), Nat.le_refl _⟩ deeper

/-- **The classes that are open at a member.** A reader that is in no class whose level it has left has
at most as many classes open as the level says. So if as many classes are around the line as its
indentation says, then they are the same. -/
theorem owners (h : Placed around level p) (hd : Deep around)
    (hhead : ∀ c ∈ around.head?, c.2 ≤ level) (ha : p.aligned = true) :
    (p.indent = 0 → around = []) ∧ (p.nest.length = p.indent → around.map Prod.fst = p.nest.map Prod.fst) := by
  have hlevel := h.level_le ha
  have few : around.length ≤ level := by
    cases around with
    | nil => exact Nat.zero_le _
    | cons c rest => exact Nat.le_trans hd.1 (hhead c rfl)
  refine ⟨fun hi => ?_, fun hi => ?_⟩
  · exact length_eq_zero_iff.mp (by omega)
  · have pairs := SublistForall₂.forall₂ h.nested (by omega)
    have names : Forall₂ Eq (p.nest.map Prod.fst) (around.map Prod.fst) :=
      forall₂_map_left_iff.mpr (forall₂_map_right_iff.mpr (pairs.imp fun _ _ hf => hf.1))
    exact (forall₂_eq_eq_eq ▸ names : p.nest.map Prod.fst = around.map Prod.fst).symm

end Placed

/-! ## Moves inside a member -/

/-- What moves inside a member do to the level and the standing: lines only leave classes, and they do
not leave the level of a class without leaving the class. -/
structure Descends (level : Nat) (p : Standing) (level' : Nat) (p' : Standing) : Prop where
  nest : p'.nest.Sublist p.nest
  level_le : ∀ c ∈ p'.nest, min level (c.2 + 1) ≤ level'
  aligned : (p.aligned = true → level ≤ p.indent) → p'.aligned = true → level' ≤ p'.indent

namespace Descends

variable {level level' level'' : Nat} {p p' p'' : Standing}

theorem refl (level : Nat) (p : Standing) : Descends level p level p :=
  ⟨Sublist.refl _, fun _ _ => Nat.min_le_left .., id⟩

theorem trans (h : Descends level p level' p') (h' : Descends level' p' level'' p'') :
    Descends level p level'' p'' := by
  refine ⟨h'.nest.trans h.nest, fun c hc => ?_, fun ha => h'.aligned (h.aligned ha)⟩
  have first := h.level_le c (h'.nest.subset hc)
  have second := h'.level_le c hc
  omega

/-- A line lowers the level to its indentation, and leaves the classes that are not indented less. -/
theorem line (level : Nat) (p : Standing) (i : Nat) : Descends level p (min level i) (p.step (.line i)) := by
  refine ⟨filter_sublist, fun c hc => ?_, fun _ _ => Nat.min_le_right ..⟩
  have := of_decide_eq_true (mem_filter.mp hc).2
  omega

theorem deeper (level : Nat) (p : Standing) : Descends level p (level + 1) (p.step .deeper) :=
  ⟨Sublist.refl _, fun _ _ => by omega, fun _ => nofun⟩

theorem resumed (h : Descends level p level' p') : Descends level p level (p'.step (.resumed level)) := by
  refine ⟨h.nest, fun _ _ => Nat.min_le_left .., fun _ ha => ?_⟩
  simp only [Standing.step, Bool.and_eq_true, decide_eq_true_eq] at ha
  exact ha.2

theorem placed {around : List (String × Nat)} (h : Descends level p level' p') (hp : Placed around level p) :
    Placed around level' p' := by
  refine ⟨h.aligned hp.level_le, ?_⟩
  refine SublistForall₂.imp (SublistForall₂.of_sublist hp.nested h.nest) fun c hc o hf => ?_
  have := h.level_le c hc
  exact ⟨hf.1, hf.2.1, by have := hf.2; omega⟩

end Descends

end GdScribe
