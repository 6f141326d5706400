import GdScribe.Proofs.Blocks.Outline
import GdScribe.Target.CPlusPlus.Writer
import GdScribe.Target.CSharp.Writer

/-!
# Tidied texts

Tidying a text drops line ends, blanks and semicolons, and does so once and for all.

* `isCode`: the characters that are always kept.
* `Neat`: texts with few line ends in a row, and no semicolon at the start of a line.

Principal results: `neat_tidyRest`, `tidyRest_tidyRest` and `tidy_only_tidies`.
-/

namespace GdScribe

open Target List Outline

variable {limit least b : Nat} {gaps cs : List Char}

def isCode (c : Char) : Bool := c != '\n' && !isGap c && c != ';'

theorem filter_tidyRest (h : Waits b gaps) : (tidyRest limit b gaps cs).filter isCode = cs.filter isCode := by
  fun_induction tidyRest limit b gaps cs with
  | case1 => rfl
  | case2 _ _ _ _ ih => simp [ih (.start _), isCode]
  | case3 _ _ _ _ ih => simp [ih (.start _), isCode]
  | case4 _ _ _ _ _ semicolon ih => simp [ih h, isCode, semicolon.2]
  | case5 _ _ _ _ _ _ gap ih => simp [ih (h.cons gap.1 gap.2), isCode, gap.2]
  | case6 _ gaps _ _ _ _ _ ih =>
    have none : gaps.reverse.filter isCode = [] :=
      filter_eq_nil_iff.mpr fun d hd => by simp [isCode, h.gap d (mem_reverse.mp hd)]
    rw [filter_append, none, nil_append, filter_cons, filter_cons, ih (.start 0)]

theorem takeWhile_tidyRest (hl : 0 < limit) :
    (tidyRest limit 0 [] cs).takeWhile (· ≠ '\n') = cs.takeWhile (· ≠ '\n') := by
  induction cs with
  | nil => rfl
  | cons c cs ih =>
    unfold tidyRest
    by_cases hc : c = '\n' <;> simp_all

/-- After so many line ends: there are never more in a row than the limit, and no semicolon comes first on a line. -/
def Neat (limit : Nat) : Nat → List Char → Prop
  | _, [] => True
  | b, c :: cs =>
    if c = '\n' then b < limit ∧ Neat limit (b + 1) cs
    else if 0 < b ∧ c = ';' then False
    else if 0 < b ∧ isGap c then Neat limit b cs
    else Neat limit 0 cs

theorem ne_of_isGap {c : Char} (h : isGap c = true) : c ≠ '\n' ∧ c ≠ ';' := by
  constructor <;> rintro rfl <;> cases h

theorem tidyRest_gaps (hb : 0 < b) {ds : List Char} (hd : ∀ c ∈ ds, isGap c = true) :
    tidyRest limit b gaps (ds ++ cs) = tidyRest limit b (ds.reverse ++ gaps) cs := by
  induction ds generalizing gaps with
  | nil => rfl
  | cons d ds ih =>
    obtain ⟨gap, hd⟩ := forall_mem_cons.mp hd
    simp [tidyRest, ne_of_isGap gap, hb, gap, ih hd]

theorem neat_gaps (hb : 0 < b) {ds : List Char} (hd : ∀ c ∈ ds, isGap c = true) :
    Neat limit b (ds ++ cs) ↔ Neat limit b cs := by
  induction ds with
  | nil => rfl
  | cons d ds ih =>
    obtain ⟨gap, hd⟩ := forall_mem_cons.mp hd
    simp [Neat, ne_of_isGap gap, hb, gap, ih hd]

theorem neat_tidyRest (hl : 0 < limit) (h : Waits b gaps) : Neat limit (min b limit) (tidyRest limit b gaps cs) := by
  fun_induction tidyRest limit b gaps cs with
  | case1 => trivial
  | case2 b gaps cs few ih =>
    rw [Neat, if_pos rfl, show min b limit + 1 = min (b + 1) limit by omega]
    exact ⟨by omega, ih (.start _)⟩
  | case3 b gaps cs many ih => rw [show min b limit = min (b + 1) limit by omega]; exact ih (.start _)
  | case4 b gaps c cs _ _ ih => exact ih h
  | case5 b gaps c cs _ _ gap ih => exact ih (h.cons gap.1 gap.2)
  | case6 b gaps c cs line semicolon gap ih =>
    have code : Neat limit (min b limit) (c :: tidyRest limit 0 [] cs) := by
      rw [Neat, if_neg line, if_neg fun h => semicolon ⟨by omega, h.2⟩, if_neg fun h => gap ⟨by omega, h.2⟩]
      simpa using ih (.start 0)
    by_cases hb : 0 < b
    · exact (neat_gaps (by omega) fun d hd => h.gap d (mem_reverse.mp hd)).mpr code
    · rw [h.inside (by omega)]
      exact code

/-- **What is tidied already** stays for a limit that is not smaller. -/
theorem tidyRest_tidyRest (hm : 0 < limit) (hl : least ≤ limit) (h : Waits b gaps) :
    tidyRest least (min b limit) [] (tidyRest limit b gaps cs) = tidyRest least b gaps cs := by
  fun_induction tidyRest limit b gaps cs with
  | case1 => rfl
  | case2 b gaps cs few ih =>
    have next := ih (.start _)
    rw [show min (b + 1) limit = b + 1 by omega] at next
    rw [show min b limit = b by omega]
    simp [tidyRest, next]
  | case3 b gaps cs many ih =>
    have next := ih (.start _)
    rw [show min (b + 1) limit = min b limit by omega] at next
    simp [tidyRest, next, show ¬ b < least by omega]
  | case4 b gaps c cs line semicolon ih => simp [tidyRest, ih h, semicolon]
  | case5 b gaps c cs line semicolon gap ih => simp_all [tidyRest, ih (h.cons gap.1 gap.2)]
  | case6 b gaps c cs line semicolon gap ih =>
    have next := ih (.start 0)
    rw [Nat.zero_min] at next
    have code : tidyRest least (min b limit) gaps (c :: tidyRest limit 0 [] cs) = tidyRest least b gaps (c :: cs) := by
      have same : 0 < min b limit ↔ 0 < b := by omega
      rw [tidyRest, tidyRest, next]
      simp only [same, line, semicolon, gap, if_false]
    by_cases hb : 0 < b
    · rw [tidyRest_gaps (by omega) fun d hd => h.gap d (mem_reverse.mp hd), reverse_reverse, append_nil, code]
    · rw [h.inside (by omega)] at code ⊢
      exact code

theorem Neat.count_le {w : List Char} (h : Neat limit b (w ++ cs)) (hb : b ≤ limit)
    (hw : ∀ c ∈ w, c = '\n' ∨ isGap c = true) : b + w.count '\n' ≤ limit := by
  induction w generalizing b with
  | nil => exact hb
  | cons c w ih =>
    obtain ⟨hc, hw⟩ := forall_mem_cons.mp hw
    rw [cons_append, Neat] at h
    split at h
    · next line => 
      have := ih h.2 h.1 hw
      rw [line, count_cons_self]
      omega
    · next line =>
      rw [count_cons_of_ne line]
      split at h
      · exact h.elim
      split at h
      · exact ih h hb hw
      · next gap => 
        have := ih h (Nat.zero_le _) hw
        have none : ¬ 0 < b := fun hb => gap ⟨hb, hc.resolve_left line⟩
        omega

theorem Neat.drop {p : List Char} (h : Neat limit b (p ++ cs)) (hb : b ≤ limit) : ∃ b' ≤ limit, Neat limit b' cs := by
  induction p generalizing b with
  | nil => exact ⟨b, hb, h⟩
  | cons c p ih =>
    rw [cons_append, Neat] at h
    split at h
    · exact ih h.2 h.1
    split at h
    · exact h.elim
    split at h
    · exact ih h hb
    · exact ih h (Nat.zero_le _)

theorem tidy_tidy {least limit : Nat} (hm : 0 < limit) (hl : least ≤ limit) (s : String) :
    tidy least (tidy limit s) = tidy least s := by
  apply String.toList_injective
  rw [toList_tidy, toList_tidy, toList_tidy]
  exact tidyRest_tidyRest hm hl (.start 0)

/-- **Tidying only tidies.** With the limit of each target, for every text: what is tidied stays; all but line ends,
blanks and semicolons is kept in its order; there are no more line ends in a row than the limit, whatever blanks stand
between them, and no line but the first starts with a semicolon; the first line stays as it is. What is tidied for one
target and then for the other is as if tidied for the other alone. -/
theorem tidy_only_tidies (s : String) :
    (∀ k ∈ [CSharp.maxLineEnds, CPlusPlus.maxLineEnds],
      tidy k (tidy k s) = tidy k s ∧ (tidy k s).toList.filter isCode = s.toList.filter isCode ∧
      (∀ w, w <:+: (tidy k s).toList → (∀ c ∈ w, c = '\n' ∨ isGap c = true) → w.count '\n' ≤ k) ∧
      (∀ w, (∀ c ∈ w, isGap c = true) → ¬ '\n' :: w ++ [';'] <:+: (tidy k s).toList) ∧
      (tidy k s).toList.takeWhile (· ≠ '\n') = s.toList.takeWhile (· ≠ '\n')) ∧
    tidy CPlusPlus.maxLineEnds (tidy CSharp.maxLineEnds s) = tidy CPlusPlus.maxLineEnds s := by
  refine ⟨fun k hk => ?_, tidy_tidy (by decide) (by decide) s⟩
  have some : 0 < k := by
    rcases mem_pair.mp hk with rfl | rfl <;> decide
  have neat : Neat k 0 (tidyRest k 0 [] s.toList) := by simpa using neat_tidyRest some (.start 0)
  refine ⟨tidy_tidy some k.le_refl s, ?_⟩
  rw [toList_tidy]
  refine ⟨filter_tidyRest (.start 0), ?_, ?_, takeWhile_tidyRest some⟩
  · rintro w ⟨p, t, text⟩ hw
    rw [← text, append_assoc] at neat
    obtain ⟨b, hb, neat⟩ := neat.drop k.zero_le
    exact Nat.le_trans (Nat.le_add_left ..) (neat.count_le hb hw)
  · rintro w hw ⟨p, t, text⟩
    rw [← text, append_assoc] at neat
    obtain ⟨b, hb, neat⟩ := neat.drop k.zero_le
    have line : Neat k (b + 1) (w ++ ([';'] ++ t)) := by simpa using neat.2
    exact (neat_gaps b.succ_pos hw).mp line

end GdScribe
