import Mathlib.Data.List.Forall2
import GdScribe.Proofs.Blocks.Outline
import GdScribe.Proofs.Target.Spelling
import GdScribe.Target.Pages

/-!
# What is written, between two statements

Targets write scopes, statements and the lines before blocks, each from the start of a line, and the
body of a function on a page of its own.

* `Outline.Rests`: the outline between two statements.
* `Sheet`: the outline of all that is written so far.
* `Braced`: the braces of a text close in turn.
* `StandsFor`: the sentences so far stand for given rows.

Principal results: `StandsFor.breaks`, `StandsFor.block`, `StandsFor.close` and `StandsFor.sentence` for what
is written, and `StandsFor.body` and `StandsFor.take` for the body of a function.
-/

namespace GdScribe

open Outline List

/-! ## Between two statements -/

variable {text : String} {cs : List Char}

namespace Outline

/-- Nothing but gaps stand on the line, and the braces and sentences so far are the given ones. -/
structure Rests (o : Outline) (depth : Int) (found : List (Int × String)) : Prop where
  depth : o.depth = depth
  low : 0 ≤ o.low
  parens : o.parens = 0
  line : o.line.all isGap = true
  found : o.found = found

theorem toList_times {c : Char} (hc : text.toList = [c]) (n : Nat) : (Text.times text n).toList = replicate n c := by
  unfold Text.times
  induction n with
  | zero => rfl
  | succ n ih => rw [replicate_succ, String.join_cons, String.toList_append, ih, hc]; rfl

theorem toList_tabs (level : Int) : (Text.tabs level).toList = replicate level.toNat '\t' := toList_times rfl _

theorem toList_indented (level : Int) (text : String) : (Page.indented level text).toList =
    text.toList.flatMap fun c =>
      if c = '\n' then '\n' :: replicate level.toNat '\t' else [c] := by
  unfold Page.indented
  rw [Text.toList_replaceAll _ _ (by decide)]
  have new : ("\n" ++ Text.tabs level).toList = '\n' :: replicate level.toNat '\t' := by
    rw [String.toList_append, toList_tabs]
    rfl
  rw [new]
  exact Text.swap_singleton ..

theorem toList_indented_line (level : Int) {line : String} (h : '\n' ∉ line.toList) :
    (Page.indented level (line ++ "\n")).toList =
      line.toList ++ '\n' :: replicate level.toNat '\t' := by
  have same : (line.toList.flatMap fun c =>
      if c = '\n' then '\n' :: replicate level.toNat '\t' else [c]) = line.toList := by
    rw [← Text.swap_singleton, Text.swap_eq_self mem_cons_self h]
  rw [toList_indented, String.toList_append, flatMap_append, same]
  simp

theorem feedAll_break (o : Outline) (n : Nat) :
    o.feedAll ('\n' :: replicate n '\t') = { o with line := replicate n '\t' } := by
  have clear : ∀ c ∈ replicate n '\t', c ∉ outlineMarks := fun c hc => by
    rw [eq_of_mem_replicate hc]
    decide
  rw [feedAll_cons, feedAll_clear clear]
  show ({ o with line := (replicate n '\t').reverse ++ [] } : Outline) = _
  rw [reverse_replicate, append_nil]

variable {o : Outline} {depth : Int} {found : List (Int × String)}

variable (h : o.Rests depth found)

include h

theorem Rests.break (n : Nat) : (o.feedAll ('\n' :: replicate n '\t')).Rests depth found := by
  rw [feedAll_break]
  exact ⟨h.depth, h.low, h.parens, by simp [isGap], h.found⟩

theorem Rests.newline : (o.feed '\n').Rests depth found := h.break 0

theorem Rests.breaks (level : Int) (k : Nat) :
    (o.feedAll (Page.indented level (Text.times "\n" k)).toList).Rests depth found := by
  rw [toList_indented, toList_times (c := '\n') rfl]
  induction k generalizing o with
  | zero => exact h
  | succ k ih =>
    rw [replicate_succ, flatMap_cons, feedAll_append]
    exact ih (h.break _)

/-- A line with something on it ends before a brace that opens a block. -/
theorem Rests.open (hcs : Inline cs) (level : Int) :
    ((o.feedAll cs).feedAll (Page.indented level "\n\x7b").toList).Rests (depth + 1) found := by
  rw [hcs o (Int.le_of_eq h.parens.symm), toList_indented]
  show ((o.grow cs).feedAll ('\n' :: replicate level.toNat '\t' ++ ['\x7b'])).Rests ..
  rw [feedAll_append, feedAll_break]
  exact ⟨congrArg (· + 1) h.depth, h.low, h.parens, rfl, h.found⟩

theorem Rests.brace (hcs : Inline cs) : ((o.feedAll cs).feed '\x7b').Rests (depth + 1) found := by
  rw [hcs o (Int.le_of_eq h.parens.symm)]
  exact ⟨congrArg (· + 1) h.depth, h.low, h.parens, rfl, h.found⟩

theorem Rests.unbrace (hd : 0 < depth) : (o.feed '\x7d').Rests (depth - 1) found := by
  refine ⟨congrArg (· - 1) h.depth, ?_, h.parens, rfl, h.found⟩
  show 0 ≤ min o.low (o.depth - 1)
  have := h.depth
  have := h.low
  omega

theorem Rests.close (hd : 0 < depth) (level : Int) :
    (o.feedAll (Page.indented level "\n\x7d").toList).Rests (depth - 1) found := by
  rw [toList_indented]
  show (o.feedAll ('\n' :: replicate level.toNat '\t' ++ ['\x7d'])).Rests ..
  rw [feedAll_append]
  exact (h.break _).unbrace hd

theorem Rests.tab : (o.feed '\t').Rests depth found := by
  rw [feed_other o (by decide)]
  exact ⟨h.depth, h.low, h.parens, by simpa [grow, isGap] using h.line, h.found⟩

theorem Rests.sentence (ht : Inline text.toList) (hs : text.toList.head?.any (fun c => !isGap c) = true) :
    (o.feedAll (text ++ ";").toList).Rests depth (found ++ [(depth, text)]) := by
  rw [String.toList_append, feedAll_append, ht o (Int.le_of_eq h.parens.symm)]
  obtain ⟨c, cs, hc⟩ : ∃ c cs, text.toList = c :: cs := by
    cases hc : text.toList with
    | nil => rw [hc] at hs; cases hs
    | cons c cs => exact ⟨c, cs, rfl⟩
  have start : isGap c = false := by
    rw [hc] at hs
    simpa using hs
  have blank : ¬ (o.grow text.toList).line.all isGap = true := by
    intro hall
    have := all_eq_true.mp hall c (by rw [hc]; simp [grow])
    rw [start] at this
    cases this
  have text_eq : (o.grow text.toList).sentence = text := by
    have gaps : ∀ x ∈ o.line.reverse, isGap x = true := fun x hx =>
      all_eq_true.mp h.line x (mem_reverse.mp hx)
    unfold Outline.sentence grow
    rw [reverse_append, reverse_reverse, dropWhile_append_of_pos gaps, hc,
      dropWhile_cons_of_neg (by rw [start]; decide), ← hc, String.ofList_toList]
  have fed : (o.grow text.toList).feed ';' =
      { o.grow text.toList with line := [], found := o.found ++ [(o.depth, text)] } := by
    unfold feed
    rw [if_neg (by decide), if_pos rfl, if_neg blank,
      if_pos (show (o.grow text.toList).parens = 0 from h.parens), text_eq]
    rfl
  show ((o.grow text.toList).feed ';').Rests _ _
  rw [fed]
  exact ⟨h.depth, h.low, h.parens, rfl, by rw [h.found, h.depth]⟩

end Outline

/-! ## Texts with parentheses -/

/-- A text whose parentheses close in turn stays on its line, if nothing else in it has a meaning for
outlines. -/
theorem Inline.of_snugBy {ok : Char → Bool} (hok : ∀ c, ok c = true → c ∉ outlineMarks)
    (h : snugBy ok 0 cs = true) : Inline cs := by
  have code (c d : Char) (h : c.toNat = d.toNat) : c = d := by
    rw [← Char.ofNat_toNat c, h, Char.ofNat_toNat]
  have all (cs : List Char) : ∀ (n : Nat) (o : Outline), snugBy ok n cs = true →
      o.feedAll cs = ⟨o.depth, o.low, o.parens - n, cs.reverse ++ o.line, o.found⟩ := by
    induction cs with
    | nil =>
      intro n o hn
      obtain rfl : n = 0 := by simpa [snugBy] using hn
      show o = ⟨o.depth, o.low, o.parens - 0, o.line, o.found⟩
      rw [Int.sub_zero]
    | cons c cs ih =>
      intro n o hn
      have grown : (c :: cs).reverse ++ o.line = cs.reverse ++ c :: o.line := by simp
      rw [feedAll_cons, grown]
      unfold snugBy at hn
      split at hn
      · rename_i hc
        obtain rfl := code c '(' hc
        have fed : o.feed '(' = ⟨o.depth, o.low, o.parens + 1, '(' :: o.line, o.found⟩ := rfl
        rw [fed, ih (n + 1) _ hn]
        simp only [mk.injEq, and_true, true_and]
        omega
      split at hn
      · rename_i hc
        obtain rfl := code c ')' hc
        obtain ⟨hpos, hn⟩ := Bool.and_eq_true_iff.mp hn
        have hpos := of_decide_eq_true hpos
        have fed : o.feed ')' = ⟨o.depth, o.low, o.parens + -1, ')' :: o.line, o.found⟩ := rfl
        rw [fed, ih (n - 1) _ hn]
        simp only [mk.injEq, and_true, true_and]
        omega
      · obtain ⟨hmark, hn⟩ := Bool.and_eq_true_iff.mp hn
        rw [feed_other o (hok c hmark), ih n _ hn]
        rfl
  intro o _
  rw [all cs 0 o h]
  show (⟨o.depth, o.low, o.parens - 0, cs.reverse ++ o.line, o.found⟩ : Outline) = o.grow cs
  rw [Int.sub_zero]
  rfl

theorem Inline.of_snug (h : snugBy (fun c => !outlineMarks.contains c) 0 cs = true) : Inline cs :=
  .of_snugBy (fun c hc => by simpa using hc) h

/-! ## Braces -/

/-- The braces of a text close in turn: none is closed that is not open, and in the end none is
open. -/
structure Braced (s : String) : Prop where
  before : ∀ cs, cs <+: s.toList → cs.count '\x7d' ≤ cs.count '\x7b'
  total : s.toList.count '\x7d' = s.toList.count '\x7b'

theorem Outline.Rests.tidied {depth : Int} {found : List (Int × String)}
    (h : (outline text).Rests depth found) (limit : Nat) (hlimit : 0 < limit) :
    (outline (Target.tidy limit text)).depth = depth ∧ 0 ≤ (outline (Target.tidy limit text)).low ∧
      (outline (Target.tidy limit text)).found = found := by
  obtain ⟨line, htidy⟩ := outline_tidy hlimit text
  generalize outline (Target.tidy limit text) = o at htidy ⊢
  rw [htidy] at h
  exact ⟨h.depth, h.low, h.found⟩

/-- An outline counts braces, and what it knows of the smallest count is below every count. -/
theorem Outline.count_braces (cs : List Char) : ∀ o : Outline,
    (o.feedAll cs).depth = o.depth + cs.count '\x7b' - cs.count '\x7d' ∧ (o.feedAll cs).low ≤ o.low ∧
      (o.low ≤ o.depth → (o.feedAll cs).low ≤ (o.feedAll cs).depth) := by
  induction cs with
  | nil => intro o; simp
  | cons c cs ih =>
    intro o
    obtain ⟨hdepth, hlow, hle⟩ := ih (o.feed c)
    rw [feedAll_cons, count_cons, count_cons]
    by_cases ho : c = '\x7b'
    · subst ho
      have fed : (o.feed '\x7b').depth = o.depth + 1 ∧ (o.feed '\x7b').low = o.low := ⟨rfl, rfl⟩
      rw [if_pos (by decide), if_neg nofun]
      omega
    by_cases hc : c = '\x7d'
    · subst hc
      have fed : (o.feed '\x7d').depth = o.depth - 1 ∧ (o.feed '\x7d').low = min o.low (o.depth - 1) := ⟨rfl, rfl⟩
      rw [if_neg nofun, if_pos (by decide)]
      omega
    have fed := o.feed_noBrace ho hc
    rw [if_neg (by simpa using ho), if_neg (by simpa using hc)]
    omega

theorem Braced.of_outline {s : String} (hd : (outline s).depth = 0) (hl : 0 ≤ (outline s).low) : Braced s := by
  have count (cs : List Char) : (feedAll {} cs).depth = 0 + cs.count '\x7b' - cs.count '\x7d' :=
    (count_braces cs {}).1
  refine ⟨fun cs hcs => ?_, ?_⟩
  · obtain ⟨rest, hrest⟩ := hcs
    have whole : outline s = (feedAll {} cs).feedAll rest := by
      unfold outline
      rw [← hrest, feedAll_append]
    rw [whole] at hl
    have later := (count_braces rest (feedAll {} cs)).2.1
    have here := (count_braces cs {}).2.2 (Int.le_refl 0)
    have := count cs
    omega
  · have := count s.toList
    unfold outline at hd
    omega

/-- A text that opens and closes its own braces is braced, also when it is tidied. -/
theorem Lifts.braced_tidy (h : Lifts 0 text.toList) {limit : Nat} (hlimit : 0 < limit) :
    Braced (Target.tidy limit text) := by
  obtain ⟨hdepth, hlow⟩ := h {} (Int.le_refl 0) (Int.le_refl 0)
  obtain ⟨line, htidy⟩ := outline_tidy hlimit text
  unfold outline at htidy
  rw [htidy] at hdepth hlow
  exact .of_outline hdepth hlow

/-! ## Pages -/

/-- The outline of all that is written so far. The body of a function stands on a page of its own,
which starts with a line end; what comes before it is on the page below. -/
inductive Sheet {τ : Type} : Bool → Pages τ → Outline → Prop
  | plain {p : Pages τ} (h : p.below = []) : Sheet false p (outline p.page)
  | body {p : Pages τ} {base : String} (h : p.below = [base]) (hparens : (outline base).parens = 0)
    (hlow : (outline base).low ≤ (outline base).depth) (hstart : ∃ cs, p.page.toList = '\n' :: cs) :
    Sheet true p ((outline p.page).under (outline base))

namespace Sheet

variable {τ : Type} {p : Pages τ} {o : Outline}

variable {inBody : Bool}

theorem write (h : Sheet inBody p o)
    (text : String) : Sheet inBody { p with page := p.page ++ text } (o.feedAll text.toList) := by
  cases h with
  | plain h =>
    rw [← outline_append]
    exact .plain h
  | body h hparens hlow hstart =>
    rw [feedAll_under, ← outline_append]
    obtain ⟨cs, hcs⟩ := hstart
    exact .body h hparens hlow ⟨cs ++ text.toList, by rw [String.toList_append, hcs]; rfl⟩

variable {q : Pages τ}

theorem congr (h : Sheet inBody p o) (hpage : q.page = p.page) (hbelow : q.below = p.below) : Sheet inBody q o := by
  cases h with
  | plain h =>
    rw [← hpage]
    exact .plain (hbelow.trans h)
  | body h hparens hlow hstart =>
    rw [← hpage] at hstart ⊢
    exact .body (hbelow.trans h) hparens hlow hstart

theorem begin (h : Sheet false p o) (hparens : o.parens = 0)
    (ht : ∃ cs, text.toList = '\n' :: cs) (hpage : q.page = text)
    (hbelow : q.below = p.page :: p.below) : Sheet true q (o.feedAll text.toList) := by
  cases h with
  | plain h =>
    have low := (count_braces p.page.toList {}).2.2 (Int.le_refl 0)
    rw [feedAll_of_break hparens low ht]
    subst hpage
    exact .body (hbelow.trans (by rw [h])) hparens low ht

/-- **The body of a function is put after its head.** -/
theorem take (h : Sheet true p o) {code : String} (hcode : p.page = code) :
    (∃ cs, code.toList = '\n' :: cs) ∧ ∃ base, p.below = [base] ∧
      ∀ {head : String} {q : Pages τ}, Inline head.toList → q.page = base ++ head ++ code →
        q.below = [] → Sheet false q o := by
  subst hcode
  cases h with
  | body hbelow hparens hlow hstart =>
    rename_i base
    refine ⟨hstart, base, hbelow, fun {head q} hhead hpage hq => ?_⟩
    have headed : outline (base ++ head) = (outline base).grow head.toList := by
      rw [outline_append]
      exact hhead _ (Int.le_of_eq hparens.symm)
    have same : outline q.page = (outline p.page).under (outline base) := by
      have body : ((outline base).grow head.toList).feedAll p.page.toList =
          (outline p.page).under ((outline base).grow head.toList) := by
        refine feedAll_of_break ?_ ?_ hstart
        · exact hparens
        · exact hlow
      rw [hpage, outline_append, headed, body]
      rfl
    rw [← same]
    exact .plain hq

end Sheet

/-! ## Statements so far -/

section

variable {τ α : Type} (R : Int × String → α → Prop) (keep : Int × String → Bool)

/-- What is written so far has `depth` open braces, and its sentences stand for `rows` in turn, apart
from those that are not kept. -/
def StandsFor (inBody : Bool) (depth : Int) (rows : List α) (p : Pages τ) : Prop :=
  ∃ o found, Sheet inBody p o ∧ o.Rests depth found ∧ List.Forall₂ R (found.filter keep) rows

namespace StandsFor

variable {R keep} {inBody : Bool} {depth depth' : Int} {rows new : List α} {p q : Pages τ}

theorem start {own : τ} : StandsFor R keep false 0 [] ({ own } : Pages τ) :=
  ⟨{}, [], .plain rfl, ⟨rfl, Int.le_refl 0, rfl, rfl, rfl⟩, .nil⟩

variable (h : StandsFor R keep inBody depth rows p)

include h

theorem add (text : String)
    (ht : ∀ {o : Outline} {found}, o.Rests depth found → ∃ more,
      Forall₂ R (more.filter keep) new ∧ (o.feedAll text.toList).Rests depth' (found ++ more))
    (hpage : q.page = p.page ++ text) (hbelow : q.below = p.below) :
    StandsFor R keep inBody depth' (rows ++ new) q := by
  obtain ⟨o, found, hsheet, hrests, hall⟩ := h
  obtain ⟨more, hmore, hrests'⟩ := ht hrests
  refine ⟨_, found ++ more, (hsheet.write text).congr hpage hbelow, hrests', ?_⟩
  rw [filter_append]
  exact rel_append hall hmore

theorem silent (text : String)
    (ht : ∀ {o : Outline} {found}, o.Rests depth found → (o.feedAll text.toList).Rests depth' found)
    (hpage : q.page = p.page ++ text) (hbelow : q.below = p.below) : StandsFor R keep inBody depth' rows q := by
  have all : StandsFor R keep inBody depth' (rows ++ []) q :=
    h.add text (fun hr => ⟨[], .nil, by rw [append_nil]; exact ht hr⟩) hpage hbelow
  rwa [append_nil] at all

theorem congr (hpage : q.page = p.page) (hbelow : q.below = p.below) : StandsFor R keep inBody depth rows q :=
  h.silent "" id (by rw [hpage, String.append_empty]) hbelow

variable {level : Int}

theorem breaks {k : Nat}
    (hpage : q.page = p.page ++ Page.indented level (Text.times "\n" k)) (hbelow : q.below = p.below) :
    StandsFor R keep inBody depth rows q :=
  h.silent _ (fun hr => hr.breaks level k) hpage hbelow

theorem close (hd : 0 < depth)
    (hpage : q.page = p.page ++ Page.indented level "\n\x7d") (hbelow : q.below = p.below) :
    StandsFor R keep inBody (depth - 1) rows q :=
  h.silent _ (fun hr => hr.close hd level) hpage hbelow

theorem block {head : String} (hhead : Inline head.toList)
    (hpage : q.page = p.page ++ head ++ Page.indented level "\n\x7b")
    (hbelow : q.below = p.below) : StandsFor R keep inBody (depth + 1) rows q := by
  refine h.silent (head ++ Page.indented level "\n\x7b") (fun hr => ?_)
    (by rw [hpage, String.append_assoc]) hbelow
  rw [String.toList_append, feedAll_append]
  exact hr.open hhead level

theorem sentence {r : α}
    (ht : Inline text.toList) (hs : text.toList.head?.any (fun c => !isGap c) = true)
    (hkeep : keep (depth, text) = true) (hr : R (depth, text) r)
    (hpage : q.page = p.page ++ (text ++ ";")) (hbelow : q.below = p.below) :
    StandsFor R keep inBody depth (rows ++ [r]) q := by
  refine h.add _ (fun hrests => ⟨[(depth, text)], ?_, hrests.sentence ht hs⟩) hpage hbelow
  rw [filter_cons_of_pos hkeep]
  exact .cons hr .nil

omit h

theorem body (h : StandsFor R keep false depth rows p)
    (hpage : q.page = Page.indented level "\n\x7b") (hbelow : q.below = p.page :: p.below) :
    StandsFor R keep true (depth + 1) rows q := by
  obtain ⟨o, found, hsheet, hrests, hall⟩ := h
  have start : ∃ cs, (Page.indented level "\n\x7b").toList = '\n' :: cs := by
    rw [toList_indented]
    exact ⟨_, rfl⟩
  exact ⟨_, found, hsheet.begin hrests.parens start hpage hbelow, hrests.open .nil level, hall⟩

theorem take (h : StandsFor R keep true depth rows p) : (∃ cs, p.page.toList = '\n' :: cs) ∧
    ∃ base, p.below = [base] ∧ ∀ {head : String} {q : Pages τ}, Inline head.toList →
      q.page = base ++ head ++ p.page → q.below = [] → StandsFor R keep false depth rows q := by
  obtain ⟨o, found, hsheet, hrests, hall⟩ := h
  obtain ⟨hstart, base, hbelow, hput⟩ := hsheet.take rfl
  exact ⟨hstart, base, hbelow, fun hhead hpage hq => ⟨o, found, hput hhead hpage hq, hrests, hall⟩⟩

end StandsFor

end

end GdScribe
