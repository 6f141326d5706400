import GdScribe.Proofs.Text.Replace
import GdScribe.Target.Tidy
import Mathlib.Data.List.Infix

/-!
# Arguments in a text

A text is cut into arguments at the commas outside parentheses.

* `passed`: the text that the walk over its characters has passed.
* `Whole`: texts in which no comma stands outside parentheses, and every parenthesis is closed.
* `Nests`: the same, by what stands before each place.

Principal results: `intercalate_splitArguments`, `splitArguments_intercalate` and `splitArguments_inverts`.
-/

namespace GdScribe

open Target List

/-- The text that has been passed: the finished arguments with commas after them, and the current one. -/
def passed (s : Int × List Char × List String) : List Char := s.2.2.reverse.flatMap (·.toList ++ [',']) ++ s.2.1.reverse

theorem passed_argumentStep (s : Int × List Char × List String) (c : Char) :
    passed (argumentStep s c) = passed s ++ [c] := by
  unfold argumentStep passed
  split_ifs with _ _ comma <;> simp
  simp [comma.1]

theorem passed_foldl (cs : List Char) : ∀ s, passed (cs.foldl argumentStep s) = passed s ++ cs := by
  induction cs with
  | nil => exact fun s => (append_nil _).symm
  | cons c cs ih => exact fun s => by rw [foldl_cons, ih, passed_argumentStep, append_assoc, singleton_append]

/-- **Nothing is lost between arguments** but the commas. -/
theorem intercalate_splitArguments (s : String) : String.intercalate "," (splitArguments s) = s := by
  apply String.toList_injective
  have all := passed_foldl s.toList (0, [], [])
  show (String.intercalate "," (String.ofList _ :: _).reverse).toList = _
  rw [String.toList_intercalate, reverse_cons, map_append, map_singleton, Text.intercalate_concat, flatMap_map]
  simpa [passed] using all

/-- From so many open parentheses on, all are closed, and commas stand inside them. -/
def closesFrom : Nat → List Char → Bool
  | n, [] => n == 0
  | n, c :: cs =>
    if c = '(' then closesFrom (n + 1) cs
    else if c = ')' then 0 < n && closesFrom (n - 1) cs
    else (c ≠ ',' || 0 < n) && closesFrom n cs

def Whole (s : String) : Prop := closesFrom 0 s.toList = true

instance (s : String) : Decidable (Whole s) := inferInstanceAs (Decidable (_ = true))

/-- A text that is whole is taken for a part of one argument. -/
theorem foldl_argumentStep (done : List String) {cs : List Char} : ∀ {n : Nat} (current : List Char),
    closesFrom n cs = true → cs.foldl argumentStep (n, current, done) = (0, cs.reverse ++ current, done) := by
  induction cs with
  | nil => intro n current h; simp_all [closesFrom]
  | cons c cs ih =>
    intro n current h
    have next {m : Nat} (step : argumentStep (n, current, done) c = ((m : Int), c :: current, done))
        (h : closesFrom m cs = true) :
        (c :: cs).foldl argumentStep (n, current, done) = (0, (c :: cs).reverse ++ current, done) := by
      rw [foldl_cons, step, ih _ h, reverse_cons, append_assoc, singleton_append]
    unfold closesFrom at h
    split at h
    · exact next (by simp_all [argumentStep]) h
    · split at h <;> obtain ⟨ok, h⟩ := Bool.and_eq_true_iff.mp h
      · exact next (by grind [argumentStep]) h
      · exact next (by grind [argumentStep]) h

/-- **What is joined with commas is cut into the same texts again.** By induction on the texts, the finished
ones first. -/
theorem splitArguments_intercalate {x : String} {xs : List String} (h : ∀ y ∈ x :: xs, Whole y) :
    splitArguments (String.intercalate "," (x :: xs)) = x :: xs := by
  have walk : ∀ (done : List String), (∀ y ∈ x :: xs, Whole y) →
      let r := (String.intercalate "," (x :: xs)).toList.foldl argumentStep (0, [], done)
      (String.ofList r.2.1.reverse :: r.2.2).reverse = done.reverse ++ x :: xs := by
    clear h
    induction xs generalizing x with
    | nil =>
      intro done h
      have := foldl_argumentStep done [] (h x mem_cons_self)
      simp_all
    | cons y ys ih =>
      intro done h
      obtain ⟨hx, hys⟩ := forall_mem_cons.mp h
      have first := foldl_argumentStep done [] hx
      have rest := ih (x :: done) hys
      rw [String.intercalate_cons_cons, String.toList_append, String.toList_append, foldl_append, foldl_append]
      simp_all [argumentStep]
  exact walk [] h

/-- From so many open parentheses on, no start of the text closes more than are open, all are closed in the end, and
every comma lies inside of some. -/
abbrev Nests (n : Nat) (cs : List Char) : Prop :=
  cs.count ')' = n + cs.count '(' ∧
    ∀ p ∈ cs.inits, p.count ')' ≤ n + p.count '(' ∧ (p ++ [','] <+: cs → p.count ')' < n + p.count '(')

theorem closesFrom_of_nests {cs : List Char} {n : Nat} (h : Nests n cs) : closesFrom n cs = true := by
  induction cs generalizing n with
  | nil => simpa [closesFrom] using h.1.symm
  | cons c cs ih =>
    have rest {m : Nat} (shift : ∀ p, n + (c :: p).count '(' + p.count ')' = m + p.count '(' + (c :: p).count ')') :
        closesFrom m cs = true := by
      refine ih ⟨by have := shift cs; have := h.1; omega, fun p hp => ?_⟩
      have := shift p
      obtain ⟨opened, inside⟩ := h.2 (c :: p) (by simpa using hp)
      exact ⟨by omega, fun comma => by have := inside (cons_prefix_cons.mpr ⟨rfl, comma⟩); omega⟩
    have first := (h.2 [c] (by cases cs <;> simp)).1
    unfold closesFrom
    split
    · next hc => exact rest fun p => by simp [hc]; omega
    split
    · next hc =>
      have some : 0 < n := by simp [hc] at first; omega
      rw [decide_eq_true some]
      exact rest fun p => by simp [hc]; omega
    · next hopen hclose =>
      have inside : (c ≠ ',' || decide (0 < n)) = true := by
        by_cases hc : c = ','
        · simpa [hc] using (h.2 [] (by simp)).2
        · simp [hc]
      rw [inside]
      exact rest fun p => by simp [hopen, hclose]

/-- **Cutting undoes joining, and joining undoes cutting.** -/
theorem splitArguments_inverts : (∀ s, String.intercalate "," (splitArguments s) = s) ∧
    ∀ xs ≠ [], (∀ x ∈ xs, Nests 0 x.toList) → splitArguments (String.intercalate "," xs) = xs := by
  refine ⟨intercalate_splitArguments, fun xs some h => ?_⟩
  obtain ⟨x, xs, rfl⟩ := exists_cons_of_ne_nil some
  exact splitArguments_intercalate fun y hy => closesFrom_of_nests (h y hy)

theorem nested_call_split :
    splitArguments (String.intercalate "," ["f(a,g(b,c))", "", "(,)"]) = ["f(a,g(b,c))", "", "(,)"] :=
  splitArguments_inverts.2 _ nofun (by decide +kernel)

end GdScribe
