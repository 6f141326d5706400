import GdScribe.Proofs.Text.Replace
import GdScribe.Text.CharClass

/-!
# Words and separators

A text is words with single characters between them that belong to no word. Replacing a text by
another inside a whole text works word by word, so it renames a word exactly if no other word
contains it.

* `segments`, `joined`: a text taken apart and put together.
* `mapWords`: the text with every word changed.
* `swap_eq_rename_iff`: when the walk that replaces a word is a renaming.
-/

namespace GdScribe.Text

open CharClass List

/-- The word a text starts with, and then every character that belongs to no word with the word
after it. Words may be empty. -/
def segments : List Char → List Char × List (Char × List Char)
  | [] => ([], [])
  | c :: s =>
    if isWord c then (c :: (segments s).1, (segments s).2) else ([], (c, (segments s).1) :: (segments s).2)

def joined (w : List Char) (rest : List (Char × List Char)) : List Char :=
  w ++ rest.flatMap fun x => x.1 :: x.2

def wordsIn (s : List Char) : List (List Char) := (segments s).1 :: (segments s).2.map (·.2)

def mapWords (f : List Char → List Char) (s : List Char) : List Char :=
  joined (f (segments s).1) ((segments s).2.map fun x => (x.1, f x.2))

def renameWord (name new w : List Char) : List Char := if w = name then new else w

def IsWord (w : List Char) : Prop := ∀ c ∈ w, isWord c = true

def Segmented (w : List Char) (rest : List (Char × List Char)) : Prop :=
  IsWord w ∧ ∀ x ∈ rest, isWord x.1 = false ∧ IsWord x.2

variable {w name new : List Char} {x : Char × List Char} {rest : List (Char × List Char)}

theorem joined_cons : joined w (x :: rest) = w ++ x.1 :: joined x.2 rest := rfl

theorem segmented_cons : Segmented w (x :: rest) ↔ IsWord w ∧ isWord x.1 = false ∧ Segmented x.2 rest := by
  simp only [Segmented, forall_mem_cons, and_assoc]

theorem joined_segments (s : List Char) : joined (segments s).1 (segments s).2 = s := by
  induction s with
  | nil => rfl
  | cons c s ih =>
    rw [segments]
    split <;> exact congrArg (c :: ·) ih

theorem segmented_segments (s : List Char) : Segmented (segments s).1 (segments s).2 := by
  induction s with
  | nil => exact ⟨nofun, nofun⟩
  | cons c s ih =>
    rw [segments]
    split
    · rename_i hc
      exact ⟨forall_mem_cons.mpr ⟨hc, ih.1⟩, ih.2⟩
    · rename_i hc
      exact ⟨nofun, forall_mem_cons.mpr ⟨⟨by simpa using hc, ih.1⟩, ih.2⟩⟩

theorem segments_append (hw : IsWord w) (s : List Char) :
    segments (w ++ s) = (w ++ (segments s).1, (segments s).2) := by
  induction w with
  | nil => rfl
  | cons c w ih =>
    obtain ⟨hc, hw⟩ := forall_mem_cons.mp hw
    rw [cons_append, segments, if_pos hc, ih hw]
    rfl

theorem segments_cut (hw : IsWord w) {x : Char} (hx : isWord x = false) (s : List Char) :
    segments (w ++ x :: s) = (w, (x, (segments s).1) :: (segments s).2) := by
  rw [segments_append hw, segments, if_neg (by simp [hx]), append_nil]

theorem segments_joined (h : Segmented w rest) : segments (joined w rest) = (w, rest) := by
  induction rest generalizing w with
  | nil =>
    rw [joined, segments_append h.1]
    simp [segments]
  | cons x rest ih =>
    obtain ⟨hw, hx, hrest⟩ := segmented_cons.mp h
    rw [joined_cons, segments_cut hw hx, ih hrest]

theorem joined_inj {v : List Char} {others : List (Char × List Char)} (h : Segmented w rest)
    (h' : Segmented v others) : joined w rest = joined v others ↔ w = v ∧ rest = others := by
  refine ⟨fun same => ?_, fun same => by rw [same.1, same.2]⟩
  have := congrArg segments same
  rwa [segments_joined h, segments_joined h', Prod.mk.injEq] at this

/-- Texts with the same separators are equal if they are so word by word. -/
theorem mapWords_eq_iff {f g : List Char → List Char} (hf : ∀ w, IsWord w → IsWord (f w))
    (hg : ∀ w, IsWord w → IsWord (g w)) (s : List Char) :
    mapWords f s = mapWords g s ↔ ∀ w ∈ wordsIn s, f w = g w := by
  have mapped (f : List Char → List Char) (hf : ∀ w, IsWord w → IsWord (f w)) :
      Segmented (f (segments s).1) ((segments s).2.map fun x => (x.1, f x.2)) := by
    obtain ⟨hw, hrest⟩ := segmented_segments s
    exact ⟨hf _ hw, forall_mem_map.mpr fun x hx => ⟨(hrest x hx).1, hf _ (hrest x hx).2⟩⟩
  rw [mapWords, mapWords, joined_inj (mapped f hf) (mapped g hg), map_inj_left, wordsIn, forall_mem_cons,
    forall_mem_map]
  simp only [Prod.mk.injEq, true_and]

/-! ## Replacing a word -/

/-- The walk that replaces a word does so inside each word of the text. -/
theorem swap_eq_mapWords (hname : name ≠ []) (word : IsWord name) (new s : List Char) :
    swap name new 0 s = mapWords (swap name new 0) s := by
  have walk rest : ∀ w, (∀ x ∈ rest, isWord x.1 = false) →
      swap name new 0 (joined w rest) = joined (swap name new 0 w) (rest.map fun x => (x.1, swap name new 0 x.2)) := by
    induction rest with
    | nil => intro w _; simp [joined]
    | cons x rest ih =>
      intro w hrest
      obtain ⟨hx, hrest⟩ := forall_mem_cons.mp hrest
      have outside : x.1 ∉ name := fun h => by simp [word _ h] at hx
      rw [joined_cons, swap_append_cons hname outside, ih x.2 hrest]
      rfl
  conv_lhs => rw [← joined_segments s]
  exact walk _ _ fun x hx => ((segmented_segments s).2 x hx).1

/-- **Replacing a word renames it** exactly if no other word of the text contains it. -/
theorem swap_eq_rename_iff (hname : name ≠ []) (word : IsWord name) (hnew : IsWord new) (s : List Char) :
    swap name new 0 s = mapWords (renameWord name new) s ↔
      ∀ w ∈ wordsIn s, name <:+: w → w = name ∨ new = name := by
  rw [swap_eq_mapWords hname word, mapWords_eq_iff (fun w hw c hc => (mem_swap hname hc).elim (hw c) (hnew c))
    fun w hw => by rw [renameWord]; split <;> assumption]
  refine forall₂_congr fun w _ => ?_
  rw [renameWord]
  split
  · rename_i he
    simp [he, swap_self hname]
  · rename_i hne
    rw [swap_eq_self_iff hname]
    simp [hne]

end GdScribe.Text
