import GdScribe.Proofs.Text.Replace
import GdScribe.Target.Tidy

/-!
# The outline of generated code

What a text of C# or C++ says about its blocks, read off character by character: how many braces are
open, how many were open at least, and the sentences, each with the number of braces around it. A
sentence is what stands on a line before a semicolon outside parentheses.

* `Inline`: texts that stay on their line and end no sentence.
* `Lifts`: texts that open some braces and close none but their own.

Principal results: `feedAll_under` and `outline_tidy`.
-/

namespace GdScribe

open List Target

/-- What is known of a text up to some character. -/
structure Outline where
  /-- The number of open braces. -/
  depth : Int := 0
  /-- The smallest number of open braces so far. -/
  low : Int := 0
  /-- The number of open parentheses. -/
  parens : Int := 0
  /-- The characters since the last line end, brace or sentence, the last one first. -/
  line : List Char := []
  /-- The sentences so far, each with the number of braces that were open. -/
  found : List (Int × String) := []
  deriving DecidableEq, Repr

namespace Outline

/-- Characters that indent. -/
def isGap (c : Char) : Bool := c == ' ' || c == '\t'

/-- The sentence that a semicolon would end. -/
def sentence (o : Outline) : String := String.ofList (o.line.reverse.dropWhile isGap)

/-- The outline with one more character. -/
def feed (o : Outline) (c : Char) : Outline :=
  if c = '\n' then { o with line := [] }
  else if c = '\x7b' then { o with depth := o.depth + 1, line := [] }
  else if c = '\x7d' then { o with depth := o.depth - 1, low := min o.low (o.depth - 1), line := [] }
  else if c = ';' then
    if o.line.all isGap then o
    else if o.parens = 0 then { o with line := [], found := o.found ++ [(o.depth, o.sentence)] }
    else { o with line := c :: o.line }
  else
    { o with parens := o.parens + (if c = '(' then 1 else if c = ')' then -1 else 0),
             line := c :: o.line }

/-- The outline with more characters. -/
def feedAll (o : Outline) (cs : List Char) : Outline := cs.foldl feed o

@[simp] theorem feedAll_nil (o : Outline) : o.feedAll [] = o := rfl

@[simp] theorem feedAll_cons (o : Outline) (c : Char) (cs : List Char) :
    o.feedAll (c :: cs) = (o.feed c).feedAll cs := rfl

theorem feedAll_append (o : Outline) (cs ds : List Char) :
    o.feedAll (cs ++ ds) = (o.feedAll cs).feedAll ds := foldl_append

end Outline

/-- The outline of a text. -/
def outline (s : String) : Outline := Outline.feedAll {} s.toList

open Outline

theorem outline_append (s t : String) : outline (s ++ t) = (outline s).feedAll t.toList := by
  unfold outline
  rw [String.toList_append, feedAll_append]

/-! ## Moving an outline -/

/-- An outline moved to where another one ends, at the start of a line. -/
def Outline.under (o base : Outline) : Outline where
  depth := base.depth + o.depth
  low := min base.low (base.depth + o.low)
  parens := o.parens
  line := o.line
  found := base.found ++ o.found.map fun e => (base.depth + e.1, e.2)

theorem Outline.feed_under (o base : Outline) (c : Char) : (o.under base).feed c = (o.feed c).under base := by
  unfold feed under sentence
  split
  · rfl
  split
  · rw [Int.add_assoc]
  split
  · simp only [mk.injEq, and_true]
    omega
  split
  · split
    · rfl
    split
    · simp
    · rfl
  · rfl

theorem Outline.feedAll_under (o base : Outline) (cs : List Char) :
    (o.under base).feedAll cs = (o.feedAll cs).under base := by
  induction cs generalizing o with
  | nil => rfl
  | cons c cs ih => rw [feedAll_cons, feedAll_cons, feed_under, ih]

variable {cs : List Char}

/-- A text that starts with a line end says the same wherever it stands outside parentheses. -/
theorem Outline.feedAll_of_break {base : Outline} (hp : base.parens = 0) (hl : base.low ≤ base.depth)
    (hcs : ∃ ds, cs = '\n' :: ds) : base.feedAll cs = (feedAll {} cs).under base := by
  obtain ⟨ds, rfl⟩ := hcs
  have start : base.feed '\n' = (feed {} '\n').under base := by
    have hmin : base.low = min base.low base.depth := by omega
    simpa [feed, under, hp] using hmin
  rw [feedAll_cons, feedAll_cons, start, feedAll_under]

/-! ## Texts that stay on their line -/

/-- The outline with more characters on its line. -/
def Outline.grow (o : Outline) (cs : List Char) : Outline := { o with line := cs.reverse ++ o.line }

theorem Outline.grow_grow (o : Outline) (cs ds : List Char) : (o.grow cs).grow ds = o.grow (cs ++ ds) := by
  unfold grow
  rw [reverse_append, append_assoc]

/-- A text that stays on its line and ends no sentence there. -/
def Inline (cs : List Char) : Prop := ∀ o : Outline, 0 ≤ o.parens → o.feedAll cs = o.grow cs

/-- A text that does so between parentheses. -/
def Enclosed (cs : List Char) : Prop := ∀ o : Outline, 0 < o.parens → '(' ∈ o.line → o.feedAll cs = o.grow cs

/-- The characters that have a meaning for outlines. -/
def outlineMarks : List Char := ['\n', '\x7b', '\x7d', ';', '(', ')']

variable {c : Char}

theorem Outline.feed_other (o : Outline) (h : c ∉ outlineMarks) : o.feed c = o.grow [c] := by
  simp only [outlineMarks, mem_cons, not_mem_nil, or_false, not_or] at h
  obtain ⟨h1, h2, h3, h4, h5, h6⟩ := h
  unfold feed
  rw [if_neg h1, if_neg h2, if_neg h3, if_neg h4, if_neg h5, if_neg h6, Int.add_zero]
  rfl

theorem Outline.feedAll_clear (h : ∀ c ∈ cs, c ∉ outlineMarks) (o : Outline) : o.feedAll cs = o.grow cs := by
  induction cs generalizing o with
  | nil => rfl
  | cons c cs ih =>
    rw [feedAll_cons, feed_other o (h c mem_cons_self),
      ih (fun d hd => h d (mem_cons_of_mem c hd)), grow_grow]
    rfl

namespace Inline

variable {cs ds : List Char}

theorem nil : Inline [] := fun _ _ => rfl

theorem append (hc : Inline cs) (hd : Inline ds) : Inline (cs ++ ds) := by
  intro o ho
  rw [feedAll_append, hc o ho, hd (o.grow cs) ho, grow_grow]

theorem of_clear (h : ∀ c ∈ cs, c ∉ outlineMarks) : Inline cs := fun o _ => o.feedAll_clear h

theorem enclosed (h : Inline cs) : Enclosed cs := fun o ho _ => h o (Int.le_of_lt ho)

theorem parens (h : Enclosed cs) : Inline ('(' :: cs ++ [')']) := by
  intro o ho
  have inner := h (o.feed '(') (Int.lt_add_one_of_le ho) mem_cons_self
  have closed (l : List Char) : feed ⟨o.depth, o.low, o.parens + 1, l, o.found⟩ ')' =
      ⟨o.depth, o.low, o.parens + 1 + -1, ')' :: l, o.found⟩ := rfl
  rw [cons_append, feedAll_cons, feedAll_append, inner]
  refine (closed _).trans ?_
  rw [Int.add_neg_cancel_right]
  unfold grow
  simp [feed]

end Inline

theorem Enclosed.append {ds : List Char} (hc : Enclosed cs) (hd : Enclosed ds) : Enclosed (cs ++ ds) := by
  intro o ho hl
  rw [feedAll_append, hc o ho hl, hd (o.grow cs) ho (mem_append_right _ hl), grow_grow]

theorem Enclosed.semicolon : Enclosed [';'] := by
  intro o ho hl
  have marked : ¬ o.line.all isGap = true := fun h => by
    have := all_eq_true.mp h '(' hl
    revert this
    decide
  have opened : ¬ o.parens = 0 := fun h => by omega
  show o.feed ';' = _
  unfold feed
  rw [if_neg marked, if_neg opened]
  rfl

/-! ## Edits that keep the outline -/

theorem Outline.feedAll_swap {old new : List Char} (hold : old ≠ [])
    (h : ∀ o : Outline, o.feedAll new = o.feedAll old) (s : List Char) :
    ∀ skip (o : Outline), o.feedAll (Text.swap old new skip s) = o.feedAll (s.drop skip) := by
  induction s with
  | nil => intro skip o; cases skip <;> rfl
  | cons c s ih =>
    intro skip o
    cases skip with
    | succ skip => exact ih skip o
    | zero =>
      unfold Text.swap
      split
      · rename_i hp
        obtain ⟨rest, hrest⟩ := isPrefixOf_iff_prefix.mp hp
        have hlen : s.drop (old.length - 1) = rest := by
          have hdrop : (c :: s).drop old.length = rest := by rw [← hrest, drop_left]
          obtain ⟨d, ds, rfl⟩ := exists_cons_of_ne_nil hold
          exact hdrop
        rw [feedAll_append, h, ih, hlen, drop_zero, ← hrest, feedAll_append]
      · rw [feedAll_cons, ih, drop_zero, drop_zero, feedAll_cons]

/-- What is written for the rest of a text, after so many line ends and with the blanks that wait, the last one
first. -/
def tidyRest (limit : Nat) : Nat → List Char → List Char → List Char
  | _, _, [] => []
  | breaks, blanks, c :: cs =>
    if c = '\n' then
      if breaks < limit then c :: tidyRest limit (breaks + 1) [] cs else tidyRest limit (breaks + 1) [] cs
    else if 0 < breaks ∧ c = ';' then tidyRest limit breaks blanks cs
    else if 0 < breaks ∧ isGap c then tidyRest limit breaks (c :: blanks) cs
    else blanks.reverse ++ c :: tidyRest limit 0 [] cs

variable {limit least b : Nat} {gaps cs : List Char}

theorem toList_tidy (limit : Nat) (s : String) : (tidy limit s).toList = tidyRest limit 0 [] s.toList := by
  have walk (cs : List Char) : ∀ t : TidyState,
      (cs.foldl (TidyState.step limit) t).done.toList = t.done.toList ++ tidyRest limit t.breaks t.blanks cs := by
    induction cs with
    | nil => simp [tidyRest]
    | cons c cs ih =>
      intro t
      rw [foldl_cons, ih, tidyRest]
      unfold TidyState.step isGap
      split_ifs <;> simp_all
  exact walk s.toList {}

/-- Blanks that wait stand after a line end. -/
structure Waits (b : Nat) (gaps : List Char) : Prop where
  gap : ∀ c ∈ gaps, isGap c = true
  inside : b = 0 → gaps = []

namespace Waits

theorem start (b : Nat) : Waits b [] := ⟨nofun, fun _ => rfl⟩

theorem cons (h : Waits b gaps) (hb : 0 < b) (hc : isGap c = true) : Waits b (c :: gaps) :=
  ⟨forall_mem_cons.mpr ⟨hc, h.gap⟩, fun h0 => by omega⟩

end Waits

theorem clear_of_isGap (h : isGap c = true) : c ∉ outlineMarks := by
  simp only [isGap, Bool.or_eq_true, beq_iff_eq] at h
  rcases h with rfl | rfl <;> decide

/-- What is tidied from some place on says the same as the text, the last line aside. The blanks that wait stand at the
start of a line. -/
theorem feedAll_tidyRest {limit b : Nat} (hlimit : 0 < limit) {gaps cs : List Char} (h : Waits b gaps) (o : Outline)
    (atStart : 0 < b → o.line = []) :
    ∃ line, (o.grow gaps.reverse).feedAll cs = { o.feedAll (tidyRest limit b gaps cs) with line := line } := by
  fun_induction tidyRest limit b gaps cs generalizing o with
  | case1 => exact ⟨_, rfl⟩
  | case2 _ _ _ _ ih => exact ih (.start _) { o with line := [] } fun _ => rfl
  | case3 _ gaps _ many ih =>
    have line := atStart (by omega)
    have same : (o.grow gaps.reverse).feed '\n' = o.grow [] := by simp [feed, grow, line]
    rw [feedAll_cons, same]
    exact ih (.start _) o fun _ => line
  | case4 _ gaps _ _ _ semicolon ih =>
    have blank : (o.grow gaps.reverse).line.all isGap = true := by
      simpa [grow, atStart semicolon.1] using h.gap
    have same : (o.grow gaps.reverse).feed ';' = o.grow gaps.reverse := by simp [feed, blank]
    simpa only [feedAll_cons, semicolon.2, same] using ih h o atStart
  | case5 b gaps c cs line semicolon gap ih =>
    have longer : (o.grow gaps.reverse).feed c = o.grow (c :: gaps).reverse := by
      rw [feed_other _ (clear_of_isGap gap.2)]
      simp [grow]
    simpa only [feedAll_cons, longer] using ih (h.cons gap.1 gap.2) o atStart
  | case6 b gaps c cs line semicolon gap ih =>
    have before := o.feedAll_clear fun d hd => clear_of_isGap (h.gap d (mem_reverse.mp hd))
    obtain ⟨last, all⟩ := ih (.start 0) ((o.grow gaps.reverse).feed c) nofun
    exact ⟨last, by rw [feedAll_append, before, feedAll_cons, feedAll_cons]; exact all⟩

/-- **Tidying keeps the outline**, the last line aside. -/
theorem outline_tidy {limit : Nat} (hlimit : 0 < limit) (s : String) :
    ∃ line, outline s = { outline (tidy limit s) with line := line } := by
  unfold outline
  rw [toList_tidy]
  exact feedAll_tidyRest hlimit (.start 0) {} nofun

/-! ## Braces only -/

/-- A text that opens `k` braces more than it closes, and closes none that it has not opened. -/
def Lifts (k : Int) (cs : List Char) : Prop :=
  ∀ o : Outline, 0 ≤ o.depth → 0 ≤ o.low →
    (o.feedAll cs).depth = o.depth + k ∧ 0 ≤ (o.feedAll cs).low

theorem Outline.feed_noBrace (o : Outline) (ho : c ≠ '\x7b') (hc : c ≠ '\x7d') :
    (o.feed c).depth = o.depth ∧ (o.feed c).low = o.low := by
  unfold feed
  rw [if_neg hc]
  split
  · exact ⟨rfl, rfl⟩
  split
  · split
    · exact ⟨rfl, rfl⟩
    split <;> exact ⟨rfl, rfl⟩
  · exact ⟨rfl, rfl⟩

namespace Lifts

variable {k m : Int} {cs ds : List Char}

theorem append (hk : 0 ≤ k) (hc : Lifts k cs) (hd : Lifts m ds) : Lifts (k + m) (cs ++ ds) := by
  intro o hdepth hlow
  obtain ⟨h1, h2⟩ := hc o hdepth hlow
  obtain ⟨h3, h4⟩ := hd (o.feedAll cs) (by omega) h2
  rw [feedAll_append]
  exact ⟨by omega, h4⟩

theorem level (hc : Lifts 0 cs) (hd : Lifts m ds) : Lifts m (cs ++ ds) := by
  have h := append (Int.le_refl 0) hc hd
  rwa [Int.zero_add] at h

theorem of_noBrace (h : ∀ c ∈ cs, c ≠ '\x7b' ∧ c ≠ '\x7d') : Lifts 0 cs := by
  induction cs with
  | nil => exact fun o _ hlow => ⟨(Int.add_zero _).symm, hlow⟩
  | cons c cs ih =>
    intro o hdepth hlow
    obtain ⟨ho, hc⟩ := h c mem_cons_self
    obtain ⟨h1, h2⟩ := o.feed_noBrace ho hc
    have rest := ih (fun d hd => h d (mem_cons_of_mem c hd)) (o.feed c) (by omega) (by omega)
    rw [feedAll_cons]
    exact ⟨by omega, rest.2⟩

theorem opening : Lifts 1 ['\x7b'] := fun _ _ hlow => ⟨rfl, hlow⟩

theorem closing (hk : 0 ≤ k) (h : Lifts (k + 1) cs) : Lifts k (cs ++ ['\x7d']) := by
  intro o hdepth hlow
  obtain ⟨h1, h2⟩ := h o hdepth hlow
  rw [feedAll_append]
  have hd : ((o.feedAll cs).feed '\x7d').depth = (o.feedAll cs).depth - 1 := rfl
  have hl : ((o.feedAll cs).feed '\x7d').low = min (o.feedAll cs).low ((o.feedAll cs).depth - 1) := rfl
  rw [feedAll_cons, feedAll_nil]
  omega

theorem swap {old new : List Char} (hn : Lifts 0 new) (h : ∀ c ∈ cs, c ≠ '\x7b' ∧ c ≠ '\x7d') :
    ∀ skip, Lifts 0 (Text.swap old new skip cs) := by
  induction cs with
  | nil => intro skip; cases skip <;> exact of_noBrace nofun
  | cons c cs ih =>
    intro skip
    have rest := ih fun d hd => h d (mem_cons_of_mem c hd)
    cases skip with
    | succ skip => exact rest skip
    | zero =>
      unfold Text.swap
      split
      · exact hn.level (rest _)
      · have one : Lifts 0 [c] := of_noBrace fun d hd => by
          rw [mem_singleton.mp hd]
          exact h c mem_cons_self
        exact one.level (rest 0)

end Lifts

end GdScribe
