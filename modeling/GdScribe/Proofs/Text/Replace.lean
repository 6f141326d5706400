import GdScribe.Text.Edit
import Mathlib.Data.List.Basic

/-!
# Replacing parts of a text

Texts are cut at a separator with pieces kept in accumulators, and put together again around a
replacement. The same result comes from one walk over the characters that copies them and puts
the replacement in the place of each occurrence.

* `swap`: the walk.
* `toList_replaceAll`: replacing is that walk.
* `swap_singleton`: for a separator of one character, each character has its own replacement.
* `mem_splitUpTo`: pieces of a text have its characters.

Principal results: `toList_replaceAll` and `replaceAll_of_not_mem`.
-/

namespace GdScribe.Text

open List

/-- The characters with `new` in the place of each occurrence of `old`, from the left; the first
number counts the characters of an occurrence that are still to be passed. -/
def swap (old new : List Char) : Nat → List Char → List Char
  | _, [] => []
  | skip + 1, _ :: s => swap old new skip s
  | 0, c :: s =>
    if old.isPrefixOf (c :: s) then new ++ swap old new (old.length - 1) s
    else c :: swap old new 0 s

/-! ## Putting pieces together -/

theorem intercalate_concat (sep : List Char) (done : List (List Char)) (p : List Char) :
    sep.intercalate (done ++ [p]) = done.flatMap (· ++ sep) ++ p := by
  induction done with
  | nil => simp
  | cons d ds ih =>
    rw [flatMap_cons, append_assoc, ← ih]
    cases ds <;> simp

/-- **Cutting and joining is one walk**, as long as the limit does not bind. The invariant is that
no more characters are left than cuts. -/
theorem intercalate_cutFrom (sep new : List Char) (s : List Char) : ∀ limit skip piece done, s.length ≤ limit →
      new.intercalate (cutFrom sep limit skip piece done s) =
        new.intercalate (done.reverse ++ [piece.reverse]) ++ swap sep new skip s := by
  induction s with
  | nil =>
    intro limit skip piece done _
    cases skip <;> cases limit <;> simp [cutFrom, swap]
  | cons c s ih =>
    intro limit skip piece done h
    rw [length_cons] at h
    obtain ⟨limit, rfl⟩ : ∃ n, limit = n + 1 := ⟨limit - 1, by omega⟩
    cases skip with
    | succ skip =>
      exact ih (limit + 1) skip piece done (by omega)
    | zero =>
      simp only [cutFrom, swap]
      split
      · rw [ih limit _ _ _ (by omega), intercalate_concat, intercalate_concat]
        simp
      · rw [ih (limit + 1) 0 _ _ (by omega), intercalate_concat, intercalate_concat]
        simp

/-- **Replacing is one walk** over the characters. -/
theorem toList_replaceAll (s : String) {old : String} (new : String) (h : old ≠ "") :
    (replaceAll s old new).toList = swap old.toList new.toList 0 s.toList := by
  have hold : old.isEmpty = false := by simpa using h
  unfold replaceAll replaceUpTo splitUpTo cut
  rw [if_neg (by simp [hold]), String.toList_intercalate, map_map]
  have pieces : (String.toList ∘ String.ofList) = id := by funext l; simp
  rw [pieces, map_id, intercalate_cutFrom _ _ _ _ _ _ _ (Nat.le_of_eq String.length_toList)]
  simp

/-! ## The walk -/

theorem swap_singleton (x : Char) (new s : List Char) :
    swap [x] new 0 s = s.flatMap fun c => if c = x then new else [c] := by
  induction s with
  | nil => rfl
  | cons c s ih =>
    simp only [swap, length_singleton, ih]
    by_cases h : c = x
    · simp [h]
    · simp [h, Ne.symm h]

variable {old new : List Char} {x : Char} {sep : String}

theorem swap_append (hold : old ≠ []) (new s : List Char) : swap old new 0 (old ++ s) = new ++ swap old new 0 s := by
  have skip (a : List Char) : swap old new a.length (a ++ s) = swap old new 0 s := by
    induction a with
    | nil => rfl
    | cons c a ih => exact ih
  cases old with
  | nil => exact absurd rfl hold
  | cons c old =>
    have found : (c :: old).isPrefixOf (c :: (old ++ s)) :=
      isPrefixOf_iff_prefix.mpr (prefix_append (c :: old) s)
    rw [cons_append, swap, if_pos found]
    exact congrArg (new ++ ·) (skip old)

theorem swap_self (hold : old ≠ []) : swap old new 0 old = new := by
  have := swap_append hold new []
  simpa [swap] using this

/-- What holds of a walk: nothing is left, an occurrence is replaced, or a character is copied. -/
theorem swap_induction (hold : old ≠ []) {P : List Char → List Char → Prop} (nil : P [] [])
    (found : ∀ t u, P t u → P (old ++ t) (new ++ u))
    (other : ∀ c t u, ¬ old <+: c :: t → P t u → P (c :: t) (c :: u)) (s : List Char) : P s (swap old new 0 s) := by
  induction h : s.length using Nat.strongRecOn generalizing s with
  | ind k ih =>
    cases s with
    | nil => exact nil
    | cons c s =>
      by_cases hp : old <+: c :: s
      · obtain ⟨t, ht⟩ := hp
        have len := congrArg length ht
        have := length_pos_iff.mpr hold
        rw [length_append] at len
        rw [← ht, swap_append hold]
        exact found _ _ (ih t.length (by omega) t rfl)
      · rw [swap, if_neg (by rwa [ isPrefixOf_iff_prefix])]
        exact other c _ _ hp (ih s.length (by rw [← h, length_cons]; omega) s rfl)

variable {c : Char} {s : List Char}

/-- The characters of a walk are old ones or come from the replacement. -/
theorem mem_swap (hold : old ≠ []) (h : c ∈ swap old new 0 s) : c ∈ s ∨ c ∈ new := by
  revert h
  refine swap_induction (P := fun s u => c ∈ u → c ∈ s ∨ c ∈ new) hold nofun (fun t u ih h => ?_)
    (fun d t u _ ih h => ?_) s
  · grind
  · grind

/-- What a walk puts in may differ from what it takes out in characters that are left out of sight. -/
theorem filter_swap {p : Char → Bool} (hold : old ≠ []) (same : new.filter p = old.filter p) (s : List Char) :
    (swap old new 0 s).filter p = s.filter p := by
  refine swap_induction (P := fun s u => u.filter p = s.filter p) hold rfl (fun t u ih => ?_) (fun c t u _ ih => ?_) s
  · rw [filter_append, filter_append, same, ih]
  · rw [filter_cons, filter_cons, ih]

/-- A walk leaves a text alone if there is nothing to replace, or if it is replaced by itself: each
replacement changes the length by the same amount. -/
theorem swap_eq_self_iff (hold : old ≠ []) (s : List Char) : swap old new 0 s = s ↔ old <:+: s → new = old := by
  refine (swap_induction (P := fun s u => (∃ n, u.length + n * old.length = s.length + n * new.length) ∧
    (u = s ↔ old <:+: s → new = old)) hold ⟨⟨0, by simp⟩, by simp [hold]⟩ ?_ ?_ s).2
  · rintro t u ⟨⟨n, hn⟩, ih⟩
    refine ⟨⟨n + 1, by simp only [length_append, Nat.succ_mul]; omega⟩, fun h _ => ?_, fun h => ?_⟩
    · have len := congrArg length h
      rw [length_append, length_append] at len
      refine (append_inj h (Nat.eq_of_mul_eq_mul_left (Nat.succ_pos n) ?_)).1
      rw [Nat.succ_mul, Nat.succ_mul]
      omega
    · have := h (prefix_append old t).isInfix
      rw [this, ih.mpr fun _ => this]
  · rintro c t u hp ⟨⟨n, hn⟩, ih⟩
    refine ⟨⟨n, by simp only [length_cons]; omega⟩, ?_⟩
    rw [cons.injEq, ih, infix_cons_iff]
    simp [hp]

theorem swap_eq_self (hx : x ∈ old) (h : x ∉ s) : swap old new 0 s = s :=
  (swap_eq_self_iff (ne_nil_of_mem hx) s).mpr fun hs => absurd (hs.subset hx) h

/-- What has no `q` in it starts a text before its first `q`, or not at all. -/
theorem prefix_append_cons_iff {q : Char} {w u : List Char} (h : q ∉ w) (r : List Char) :
    w <+: u ++ q :: r ↔ w <+: u := by
  induction w generalizing u with
  | nil => simp
  | cons x w ih =>
    have hx : x ≠ q := fun hx => h (hx ▸ .head _)
    cases u with
    | nil => simp [hx]
    | cons y u =>
      rw [cons_append, cons_prefix_cons, cons_prefix_cons, ih fun hq => h (mem_cons_of_mem x hq)]

theorem isPrefixOf_append_cons (hx : x ∉ old) (u r : List Char) : old.isPrefixOf (u ++ x :: r) = old.isPrefixOf u := by
  rw [Bool.eq_iff_iff, isPrefixOf_iff_prefix, isPrefixOf_iff_prefix, prefix_append_cons_iff hx]

/-- Where no occurrence reaches into what follows, the walk parts in two. -/
theorem swap_append_of_apart (hold : old ≠ []) {t : List Char} (apart : ∀ a ≠ [], old <+: a ++ t → old <+: a)
    (s : List Char) : swap old new 0 (s ++ t) = swap old new 0 s ++ swap old new 0 t := by
  refine swap_induction (P := fun s u => swap old new 0 (s ++ t) = u ++ swap old new 0 t) hold rfl
    (fun s u ih => ?_) (fun c s u hp ih => ?_) s
  · rw [append_assoc, swap_append hold, ih, append_assoc]
  · have none := mt (apart (c :: s) (cons_ne_nil c s)) hp
    rw [cons_append, swap, if_neg (by rwa [ isPrefixOf_iff_prefix]), ih]
    rfl

/-- A character that `old` does not have parts the walk in two. -/
theorem swap_append_cons (hold : old ≠ []) (hx : x ∉ old) (s t : List Char) :
    swap old new 0 (s ++ x :: t) = swap old new 0 s ++ x :: swap old new 0 t := by
  rw [swap_append_of_apart hold fun a _ => (prefix_append_cons_iff hx t).mp]
  have none : ¬ old <+: x :: t := fun h => hold (prefix_nil.mp ((prefix_append_cons_iff (u := []) hx t).mp h))
  simp [swap, none]

/-- A word in which its first character does not come again is found at the end of a text. -/
theorem swap_append_self {r : List Char} (hx : x ∉ r) (s : List Char) :
    swap (x :: r) new 0 (s ++ x :: r) = swap (x :: r) new 0 s ++ new := by
  rw [swap_append_of_apart (cons_ne_nil x r), swap_self (cons_ne_nil x r)]
  rintro (_ | ⟨c, a⟩) ha h
  · exact absurd rfl ha
  · rwa [cons_append, cons_prefix_cons, prefix_append_cons_iff hx, ← cons_prefix_cons] at h

theorem mem_replaceAll {s old new : String} (hold : old ≠ "")
    (h : c ∈ (replaceAll s old new).toList) : c ∈ s.toList ∨ c ∈ new.toList := by
  rw [toList_replaceAll s new hold] at h
  exact mem_swap (by simpa using hold) h

theorem replaceAll_of_not_mem {s old : String} (new : String) (hx : x ∈ old.toList)
    (h : x ∉ s.toList) : replaceAll s old new = s := by
  have hold : old ≠ "" := by rintro rfl; simp at hx
  apply String.toList_injective
  rw [toList_replaceAll s new hold, swap_eq_self hx h]

/-- A word that stands once in a text, after a character that it does not have. -/
theorem replaceAll_once {a b old : String} {x y z : Char} (hx : x ∈ old.toList) (ha : x ∉ a.toList)
    (hy : y ∈ old.toList) (hb : y ∉ b.toList) (hz : z ∉ old.toList) (new : String) :
    replaceAll (a ++ String.singleton z ++ old ++ b) old new = a ++ String.singleton z ++ new ++ b := by
  have some : old.toList ≠ [] := ne_nil_of_mem hx
  apply String.toList_injective
  rw [toList_replaceAll _ _ (by rintro rfl; exact some rfl)]
  simp only [String.toList_append, String.toList_singleton, append_assoc, cons_append, nil_append]
  rw [swap_append_cons some hz, swap_append some, swap_eq_self hx ha, swap_eq_self hy hb]

/-! ## Pieces -/

theorem mem_cutFrom {sep piece p : List Char} {limit skip : Nat} {done : List (List Char)}
    (hp : p ∈ cutFrom sep limit skip piece done s) (hc : c ∈ p) : c ∈ s ∨ c ∈ piece ∨ ∃ q ∈ done, c ∈ q := by
  fun_induction cutFrom sep limit skip piece done s with
  | case1 => grind
  | case2 _ _ _ _ _ _ ih => exact (ih hp).imp_left (.tail _)
  | case3 _ _ _ _ ih => grind
  | case4 _ _ _ _ _ _ ih => grind
  | case5 _ _ _ _ _ _ ih => grind

theorem mem_splitUpTo {s p : String} {limit : Nat} (hp : p ∈ splitUpTo s sep limit)
    (hc : c ∈ p.toList) : c ∈ s.toList := by
  obtain ⟨q, hq, rfl⟩ := mem_map.mp hp
  rcases mem_cutFrom hq (by simpa using hc) with h | h | ⟨_, h, _⟩
  · exact h
  · cases h
  · cases h

theorem mem_split {s p : String} (hp : p ∈ split s sep) (hc : c ∈ p.toList) :
    c ∈ s.toList := mem_splitUpTo hp hc

/-- Nothing is cut where no cut is left, or no separator. -/
theorem cutFrom_eq {sep : List Char} {limit : Nat} (h : limit = 0 ∨ ∃ x ∈ sep, x ∉ s) (piece : List Char)
    (done : List (List Char)) : cutFrom sep limit 0 piece done s = ((s.reverse ++ piece).reverse :: done).reverse := by
  induction s generalizing piece with
  | nil => rfl
  | cons c s ih =>
    have rest := ih (h.imp_right fun ⟨x, hx, hs⟩ => ⟨x, hx, fun hm => hs (.tail c hm)⟩) (c :: piece)
    have grown : (c :: s).reverse ++ piece = s.reverse ++ c :: piece := by simp
    rw [grown, ← rest]
    cases limit with
    | zero => rfl
    | succ limit =>
      obtain ⟨x, hx, hs⟩ := h.resolve_left nofun
      rw [cutFrom, if_neg fun hp => hs (( isPrefixOf_iff_prefix.mp hp).subset hx)]

theorem split_of_not_mem {s : String} (hx : x ∈ sep.toList) (h : x ∉ s.toList) : split s sep = [s] := by
  unfold split splitUpTo cut
  rw [cutFrom_eq (.inr ⟨x, hx, h⟩)]
  simp

/-! ## The first occurrence -/

/-- The characters with `new` in the place of the first `x`. -/
def swapFirst (x : Char) (new : List Char) : List Char → List Char
  | [] => []
  | c :: s => if c = x then new ++ s else c :: swapFirst x new s

theorem intercalate_cut_one (x : Char) (new cs : List Char) :
    new.intercalate (cut [x] 1 cs) = swapFirst x new cs := by
  have walk (cs : List Char) : ∀ piece, new.intercalate (cutFrom [x] 1 0 piece [] cs) =
      piece.reverse ++ swapFirst x new cs := by
    induction cs with
    | nil => intro piece; simp [cutFrom, swapFirst]
    | cons c cs ih =>
      intro piece
      by_cases hc : c = x
      · subst hc
        simp [cutFrom, swapFirst, cutFrom_eq]
      · have absent : isPrefixOf [x] (c :: cs) = false := by simp [isPrefixOf, Ne.symm hc]
        rw [cutFrom, absent, if_neg Bool.false_ne_true, ih, swapFirst, if_neg hc]
        simp
  exact walk cs []

theorem toList_replaceFirst (s : String) {old : String} (new : String) (h : old.toList = [x]) :
    (replaceFirst s old new).toList = swapFirst x new.toList s.toList := by
  unfold replaceFirst replaceUpTo splitUpTo
  have pieces : (String.toList ∘ String.ofList) = id := by funext l; simp
  rw [String.toList_intercalate, map_map, pieces, map_id, h, intercalate_cut_one]

/-- What is cut in two at the last separator is put together again around it. -/
theorem eq_of_splitLast {s a b : String} (hx : sep.toList = [x])
    (h : splitLast s sep 1 = [a, b]) : s = a ++ sep ++ b := by
  have whole := intercalate_cut_one x [x] s.toList.reverse
  have same (cs : List Char) : swapFirst x [x] cs = cs := by
    induction cs with
    | nil => rfl
    | cons c cs ih => rw [swapFirst]; split <;> simp_all
  unfold splitLast at h
  rw [hx] at h
  have cut := congrArg reverse h
  rw [reverse_reverse] at cut
  obtain ⟨p, q, hpq, rfl, rfl⟩ : ∃ p q, Text.cut [x] 1 s.toList.reverse = [p, q] ∧
      String.ofList p.reverse = b ∧ String.ofList q.reverse = a := by
    match hc : Text.cut [x] 1 s.toList.reverse, cut with
    | [p, q], cut => exact ⟨p, q, rfl, by simpa using cut⟩
  rw [hpq, same] at whole
  apply String.toList_injective
  have := congrArg reverse whole
  rw [reverse_reverse] at this
  rw [← this]
  simp [hx]

end GdScribe.Text
