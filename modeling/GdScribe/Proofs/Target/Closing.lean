import GdScribe.Target.Tidy

/-!
# The brace that leaves none open

`closeWith` replaces the first closing brace that leaves none open, and goes on counting from `farDepth`.

* `ClosesLast`: a closing brace leaves no brace open.
* `ClosesFirst`: it is the first that does.

Principal result: `closeWith_once_iff`.
-/

namespace GdScribe

open Target List

/-- With `n` braces open before the text `l`, its closing brace between `a` and `b` leaves none open. -/
def ClosesLast (n : Int) (l a b : List Char) : Prop :=
  l = a ++ '\x7d' :: b ∧ n + a.count '\x7b' = a.count '\x7d' + 1

def ClosesFirst (n : Int) (l a b : List Char) : Prop := ClosesLast n l a b ∧ ∀ c d, ¬ ClosesLast n a c d

theorem exists_closesFirst {n : Int} {l a b : List Char} (h : ClosesLast n l a b) : ∃ a b, ClosesFirst n l a b := by
  by_cases earlier : ∃ c d, ClosesLast n a c d
  · obtain ⟨c, d, rfl, even⟩ := earlier
    exact exists_closesFirst (a := c) (b := d ++ '\x7d' :: b) ⟨by simp [h.1], even⟩
  · exact ⟨a, b, h, fun c d hc => earlier ⟨c, d, hc⟩⟩
termination_by a.length

variable {n : Int} {l a b : List Char} {r : String}

theorem closingBraceStep_cases (r : String) (s : Int × String) (c : Char) :
    c = '\x7d' ∧ s.1 = 1 ∧ closingBraceStep r s c = (farDepth, s.2 ++ r) ∨
      closingBraceStep r s c = (s.1 + [c].count '\x7b' - [c].count '\x7d', s.2.push c) := by
  unfold closingBraceStep
  grind

/-- A text is passed unchanged up to a closing brace that leaves none open. -/
theorem foldl_closing (h : ∀ a b, ¬ ClosesLast n l a b) (done : String) : l.foldl (closingBraceStep r) (n, done) =
    (n + l.count '\x7b' - l.count '\x7d', done ++ String.ofList l) := by
  induction l generalizing n done with
  | nil => simp
  | cons c l ih =>
    have counts (x : Char) (l : List Char) : (c :: l).count x = [c].count x + l.count x := by
      rw [← count_append, singleton_append]
    rcases closingBraceStep_cases r (n, done) c with ⟨rfl, one, -⟩ | step
    · exact absurd ⟨rfl, by simpa using one⟩ (h [] l)
    · rw [foldl_cons, step, ih, counts _ l, counts _ l]
      · exact Prod.ext (by dsimp only; omega) (String.toList_injective (by simp))
      · rintro a b ⟨rfl, even⟩
        refine h (c :: a) b ⟨rfl, ?_⟩
        rw [counts _ a, counts _ a]
        omega

theorem ClosesFirst.foldl (h : ClosesFirst n l a b) (done : String) : l.foldl (closingBraceStep r) (n, done) =
    b.foldl (closingBraceStep r) (farDepth, done ++ String.ofList a ++ r) := by
  obtain ⟨⟨rfl, even⟩, first⟩ := h
  have closed : n + a.count '\x7b' - a.count '\x7d' - 1 = 0 := by omega
  rw [foldl_append, foldl_closing first, foldl_cons]
  simp [closingBraceStep, closed]

theorem length_foldl_closing (l : List Char) (s : Int × String) :
    (l.foldl (closingBraceStep "") s).2.length ≤ s.2.length + l.length := by
  induction l generalizing s with
  | nil => exact Nat.le_refl _
  | cons c l ih =>
    have step : (closingBraceStep "" s c).2.length ≤ s.2.length + 1 := by
      rcases closingBraceStep_cases "" s c with ⟨-, -, step⟩ | step <;> simp [step]
    have rest := ih (closingBraceStep "" s c)
    rw [foldl_cons, length_cons]
    omega

theorem not_closesLast_of_kept {done : String}
    (kept : (l.foldl (closingBraceStep "") (n, done)).2 = done ++ String.ofList l) : ¬ ClosesLast n l a b := by
  -- The empty text stands for the brace, so that one character is missing.
  intro h
  obtain ⟨a, b, h⟩ := exists_closesFirst h
  have shorter := length_foldl_closing b (farDepth, done ++ String.ofList a ++ "")
  rw [← h.foldl, kept, h.1.1, String.append_empty, String.length_append, String.length_append] at shorter
  simp only [String.length_ofList, length_append, length_cons] at shorter
  omega

/-- **One brace is replaced**, the first that leaves none open, unless behind it `farDepth` more braces are
closed than opened: then another is replaced as well. -/
theorem closeWith_once_iff (s : String) :
    (∀ r, (∀ a b, ClosesFirst 0 s.toList a b → closeWith s r = String.ofList a ++ r ++ String.ofList b) ∧
      ((∀ a b, ¬ ClosesLast 0 s.toList a b) → closeWith s r = s)) ↔
    ∀ a b, ClosesFirst 0 s.toList a b → ∀ c d, ¬ ClosesLast farDepth b c d := by
  have walked (r : String) {a b : List Char} (h : ClosesFirst 0 s.toList a b) : closeWith s r =
      (b.foldl (closingBraceStep r) (farDepth, String.ofList a ++ r)).2 := by
    rw [closeWith, h.foldl, String.empty_append]
  constructor
  · intro once a b h c d
    exact not_closesLast_of_kept ((walked "" h).symm.trans ((once "").1 a b h))
  · refine fun once r => ⟨fun a b h => ?_, fun none => ?_⟩
    · rw [walked r h, foldl_closing (once a b h)]
    · rw [closeWith, foldl_closing none, String.empty_append, String.ofList_toList]

/-- Of a thousand closing braces after one that opens, the first and the last are replaced. -/
theorem closeWith_twice : ClosesFirst 0 ('\x7b' :: replicate 1000 '\x7d') ['\x7b'] (replicate 999 '\x7d') ∧
    closeWith (String.ofList ('\x7b' :: replicate 1000 '\x7d')) "" ≠
      String.ofList ['\x7b'] ++ "" ++ String.ofList (replicate 999 '\x7d') := by
  have first : ClosesFirst 0 ('\x7b' :: replicate 1000 '\x7d') ['\x7b'] (replicate 999 '\x7d') :=
    ⟨⟨rfl, rfl⟩, fun c d h => by simpa using congrArg (count '\x7d') h.1⟩
  refine ⟨first, fun kept => ?_⟩
  rw [closeWith, String.toList_ofList, first.foldl, String.empty_append] at kept
  have last : ClosesLast farDepth (replicate 999 '\x7d') (replicate 998 '\x7d') [] :=
    ⟨replicate_succ', by rw [count_replicate, count_replicate]; rfl⟩
  exact not_closesLast_of_kept kept last

end GdScribe
