import GdScribe.Proofs.Token.Tiling
import Mathlib

/-!
# Line numbers

Each piece of a text knows its line from the line feeds in the pieces before it. A comparison takes the character
after its operator with it, and this may be a line feed that nothing counts.

Principal result: `line_numbers`.
-/

namespace GdScribe.Scan

open List

/-- The line feeds in comparisons that start before a place. -/
def uncounted (ps : List Piece) (place : Nat) : Nat :=
  ((ps.filter (·.start < place)).map fun p => missedFeeds p.kind p.source).sum

variable {line pos : Nat} {cs : List Char} {ps : List Piece}

theorem uncounted_cons {p : Piece} {place : Nat} (h : p.start < place) (ps : List Piece) :
    uncounted (p :: ps) place = missedFeeds p.kind p.source + uncounted ps place := by
  simp [uncounted, h]

theorem Tiles.uncounted_eq_zero (h : Tiles line pos cs ps) : uncounted ps pos = 0 := by
  have none : ps.filter (·.start < pos) = [] :=
    filter_eq_nil_iff.mpr fun p hp => by simpa using h.start_le p hp
  rw [uncounted, none]
  rfl

theorem StartsWith.count_lineFeed {c : Char} {l rest : List Char} {k : PieceKind}
    (h : StartsWith c (l ++ rest) k (l.length + 1)) :
    (c :: l).count '\n' = lineFeeds k (c :: l) + missedFeeds k (c :: l) := by
  have takes := h.covers.2.2
  rw [← cons_append, show l.length + 1 = (c :: l).length from rfl, take_left] at takes
  by_cases hm : '\n' ∈ c :: l
  · exact takes hm _
  · unfold lineFeeds missedFeeds
    rw [count_eq_zero.mpr hm]
    split <;> simp

/-- **Lines are counted**, but for line feeds in comparisons: by what each piece covers. -/
theorem Tiles.line_eq (h : Tiles line pos cs ps) :
    (∀ p ∈ ps, p.line + uncounted ps p.start = line + (cs.take (p.start - pos)).count '\n') ∧
      (ps.getLast?.elim line fun p => p.line + lineFeeds p.kind p.source) + uncounted ps (pos + cs.length) =
        line + cs.count '\n' := by
  induction h with
  | nil => exact ⟨nofun, rfl⟩
  | @cons k c l rest ps line pos starts h ih =>
    have feeds := starts.count_lineFeed
    obtain ⟨lines, final⟩ := ih
    constructor
    · intro p hp
      rcases mem_cons.mp hp with rfl | hp
      · rw [uncounted_eq_zero (.cons line pos starts h), Nat.sub_self]
        rfl
      · have := h.start_le p hp
        have reach : p.start - pos = (c :: l).length + (p.start - (pos + (l.length + 1))) := by
          rw [length_cons]
          omega
        rw [uncounted_cons (by dsimp only; omega), reach, take_length_add_append, count_append]
        have := lines p hp
        dsimp only
        omega
    · rw [uncounted_cons (by simp), count_append, length_append, length_cons, ← Nat.add_assoc pos, getLast?_cons]
      cases last : ps.getLast? <;> simp only [last, Option.elim, Option.getD] at final ⊢ <;> omega

/-- **Line numbers are right** but for line feeds in comparisons. For every text: the line of a token and of a reported
character, and the line at the end, are one more than the line feeds before it, less those that comparisons before it
took with them. -/
theorem line_numbers (s : String) :
    (∀ t ∈ tokens s, t.line + uncounted (pieces s) t.start = 1 + (s.toList.take t.start).count '\n') ∧
      notices s = ((strays s).filter fun x => x.char ≠ '\t').map Stray.notice ∧
      (∀ x ∈ strays s, x.line + uncounted (pieces s) x.place = 1 + (s.toList.take x.place).count '\n') ∧
      finalLine s + uncounted (pieces s) s.length = 1 + s.toList.count '\n' := by
  obtain ⟨lines, final⟩ := (tiles_pieces s).line_eq
  refine ⟨fun t ht => ?_, notices_eq s, fun x hx => ?_, ?_⟩
  · obtain ⟨p, hp, k, -, rfl⟩ := mem_tokens.mp ht
    exact lines p hp
  · obtain ⟨p, hp, -, l, -, line, place⟩ := mem_strays.mp hx
    rw [← line, ← place]
    exact lines p hp
  · rw [Nat.zero_add, String.length_toList] at final
    rw [← final, finalLine]
    cases (pieces s).getLast? <;> rfl

/-- The line feed after a comparison is not counted. -/
theorem comparison_hides_line :
    (tokens "a ==\nb").map (·.line) = [1, 1, 1] ∧ finalLine "a ==\nb" = 1 := by decide +kernel

end GdScribe.Scan
