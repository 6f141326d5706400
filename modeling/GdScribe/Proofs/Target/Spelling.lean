import GdScribe.Proofs.Text.Replace
import GdScribe.Target.CSharp.Library
import Mathlib.Data.List.TakeWhile

/-!
# The characters of written names

Names are put into another case, cut at underscores and joined again before they are written. What
comes out has characters of the same sort.

* `Plain`: characters of ASCII other than line ends.
* `snugBy`: a test for texts with parentheses in them.

Principal results: `CSharp.pascal_over`, `CSharp.plain_variableName`, `CSharp.plain_callName` and
`CSharp.plain_typeName` — no name brings a line end into the code.
-/

namespace GdScribe

open List

/-- All characters of a text satisfy `p`. -/
def Over (p : Char → Prop) (s : String) : Prop := ∀ c ∈ s.toList, p c

instance (p : Char → Prop) [DecidablePred p] (s : String) : Decidable (Over p s) :=
  inferInstanceAs (Decidable (∀ c ∈ s.toList, p c))

/-- A sort of characters of ASCII that is closed under change of case. -/
structure CaseClosed (p : Char → Prop) : Prop where
  ascii : ∀ c, p c → c.toNat < 128
  upper : ∀ c, p c → p c.toUpper
  lower : ∀ c, p c → p c.toLower

/-- A character of ASCII other than a line end. -/
def PlainChar (c : Char) : Prop := c.toNat < 128 ∧ c ≠ '\n'

instance : DecidablePred PlainChar := fun _ => inferInstanceAs (Decidable (_ ∧ _))

/-- A text of ASCII without line ends. -/
abbrev Plain : String → Prop := Over PlainChar

theorem intercalate_cons (sep x : String) (xs : List String) :
    String.intercalate sep (x :: xs) = x ++ .join (xs.map (sep ++ ·)) := by
  induction xs generalizing x with
  | nil => simp
  | cons y ys ih =>
    rw [String.intercalate_cons_cons, ih, map_cons, String.join_cons]
    simp only [String.append_assoc]

variable {sep old new : String}

theorem mem_intercalate {a : String} {c : Char} {l : List String} (ha : a ∈ l) (hc : c ∈ a.toList) :
    c ∈ (String.intercalate sep l).toList := by
  cases l with
  | nil => cases ha
  | cons x xs =>
    rw [intercalate_cons]
    rcases mem_cons.mp ha with rfl | ha
    · simp [hc]
    · simp
      exact .inr ⟨a, ha, .inr hc⟩

variable {q : Char → Prop} {cs : List Char}

namespace Over

variable {p : Char → Prop} {s t : String}

theorem mono (h : Over p s) (hpq : ∀ c, p c → q c) : Over q s := fun c hc => hpq c (h c hc)

theorem empty : Over p "" := fun _ hc => by simp at hc

theorem ofList (h : ∀ c ∈ cs, p c) : Over p (String.ofList cs) := by
  intro c hc
  rw [String.toList_ofList] at hc
  exact h c hc

theorem append (hs : Over p s) (ht : Over p t) : Over p (s ++ t) := by
  intro c hc
  rw [String.toList_append] at hc
  rcases mem_append.mp hc with h | h
  · exact hs c h
  · exact ht c h

variable {l : List String}

theorem join (h : ∀ s ∈ l, Over p s) : Over p (String.join l) := by
  intro c hc
  rw [String.toList_join] at hc
  obtain ⟨s, hs, hc⟩ := mem_flatMap.mp hc
  exact h s hs c hc

theorem times (h : Over p s) (n : Nat) : Over p (Text.times s n) := join fun _ ht => (eq_of_mem_replicate ht) ▸ h

theorem dropEnd (h : Over p s) (n : Nat) : Over p (Text.dropEnd s n) := by
  intro c hc
  unfold Text.dropEnd at hc
  rw [String.toList_ofList] at hc
  exact h c (mem_of_mem_take hc)

theorem strip (h : Over p s) : Over p (Text.strip s) := by
  intro c hc
  unfold Text.strip at hc
  rw [String.toList_ofList, mem_reverse] at hc
  have inner := (dropWhile_suffix _).subset hc
  exact h c ((dropWhile_suffix _).subset (mem_reverse.mp inner))

theorem intercalate (hsep : Over p sep) (h : ∀ x ∈ l, Over p x) : Over p (String.intercalate sep l) := by
  cases l with
  | nil => exact .empty
  | cons x xs =>
    rw [intercalate_cons]
    refine (h x mem_cons_self).append (.join fun y hy => ?_)
    obtain ⟨z, hz, rfl⟩ := mem_map.mp hy
    exact hsep.append (h z (mem_cons_of_mem x hz))

theorem replaceAll (h : Over p s) (hn : Over p new) (hold : old ≠ "") :
    Over p (Text.replaceAll s old new) := fun c hc =>
  (Text.mem_replaceAll hold hc).elim (h c) (hn c)

theorem replaceFirst (h : Over p s) (hn : Over p new) : Over p (Text.replaceFirst s old new) :=
  intercalate hn fun _ hx c hc => h c (Text.mem_splitUpTo hx hc)

end Over

theorem ascii_forall (h : ∀ n < 128, q (Char.ofNat n)) (c : Char) (hc : c.toNat < 128) : q c := by
  have at_c := h c.toNat hc
  rwa [Char.ofNat_toNat] at at_c

theorem CaseClosed.of_ascii {p : Char → Prop} (hp : ∀ c, p c → c.toNat < 128)
    (h : ∀ n < 128, p (Char.ofNat n) → p (Char.ofNat n).toUpper ∧ p (Char.ofNat n).toLower) : CaseClosed p := by
  have both (c : Char) (hc : p c) : p c.toUpper ∧ p c.toLower :=
    ascii_forall (q := fun c => p c → p c.toUpper ∧ p c.toLower) h c (hp c hc) hc
  exact ⟨hp, fun c hc => (both c hc).1, fun c hc => (both c hc).2⟩

theorem plainChar_caseClosed : CaseClosed PlainChar := .of_ascii (fun _ h => h.1) (by decide)

/-- Whether the parentheses of a text close in turn, `n` of them being open, and all its other
characters pass a test. -/
def snugBy (ok : Char → Bool) : Nat → List Char → Bool
  | n, [] => n == 0
  | n, c :: cs =>
    if c.toNat = 40 then snugBy ok (n + 1) cs
    else if c.toNat = 41 then decide (0 < n) && snugBy ok (n - 1) cs
    else ok c && snugBy ok n cs

theorem mem_of_snugBy {ok : Char → Bool} {c : Char} (hc : c ∈ cs) :
    ∀ {n : Nat}, snugBy ok n cs = true → c.toNat = 40 ∨ c.toNat = 41 ∨ ok c = true := by
  induction cs with
  | nil => cases hc
  | cons d cs ih =>
    intro n h
    unfold snugBy at h
    rcases mem_cons.mp hc with rfl | hc
    · split at h
      · exact .inl ‹_›
      split at h
      · exact .inr (.inl ‹_›)
      · exact .inr (.inr (Bool.and_eq_true_iff.mp h).1)
    · split at h
      · exact ih hc h
      split at h
      · exact ih hc (Bool.and_eq_true_iff.mp h).2
      · exact ih hc (Bool.and_eq_true_iff.mp h).2

namespace CaseClosed

variable {p : Char → Prop} (H : CaseClosed p) {s : String}

include H

theorem capitalize (h : Over p s) : Over p (Text.capitalize s) := by
  unfold Text.capitalize
  cases hs : s.toList with
  | nil => exact h
  | cons c cs =>
    have hc : p c := h c (by rw [hs]; exact .head _)
    have form : Text.upperForm c = String.singleton c.toUpper := by
      unfold Text.upperForm
      rw [if_pos (H.ascii c hc)]
    dsimp only
    rw [form]
    refine Over.append (fun d hd => ?_) fun d hd => ?_
    · rw [String.toList_singleton, mem_singleton] at hd
      exact hd ▸ H.upper c hc
    · rw [String.toList_ofList] at hd
      exact h d (by rw [hs]; exact mem_cons_of_mem c hd)

theorem lowerFrom (cs : List Char) (h : ∀ c ∈ cs, p c) :
    ∀ before acc, Over p acc → Over p (Text.lowerFrom before acc cs) := by
  induction cs with
  | nil => intro _ _ hacc; exact hacc
  | cons c cs ih =>
    intro before acc hacc
    have hc := h c mem_cons_self
    have form : Text.lowerForm c = String.singleton c.toLower := by
      unfold Text.lowerForm
      rw [if_pos (H.ascii c hc)]
    have other : ¬ (c.toNat = 0x3A3 ∧ Text.nextCased before ∧ ¬ Text.nextCased cs) := by
      have := H.ascii c hc
      omega
    unfold Text.lowerFrom
    rw [if_neg other, form]
    refine ih (fun d hd => h d (mem_cons_of_mem c hd)) _ _ (hacc.append fun d hd => ?_)
    rw [String.toList_singleton, mem_singleton] at hd
    exact hd ▸ H.lower c hc

theorem uppered (h : Over p s) : Over p (Text.upper s) := by
  have all (cs : List Char) (h : ∀ c ∈ cs, p c) :
      ∀ acc, Over p acc → Over p (cs.foldl (fun acc c => acc ++ Text.upperForm c) acc) := by
    induction cs with
    | nil => exact fun _ hacc => hacc
    | cons c cs ih =>
      intro acc hacc
      have hc := h c mem_cons_self
      have form : Text.upperForm c = String.singleton c.toUpper := if_pos (H.ascii c hc)
      refine ih (fun d hd => h d (mem_cons_of_mem c hd)) _ (hacc.append fun d hd => ?_)
      rw [form, String.toList_singleton, mem_singleton] at hd
      exact hd ▸ H.upper c hc
  exact all s.toList h "" .empty

theorem lowered (h : Over p s) : Over p (Text.lower s) := H.lowerFrom s.toList h [] "" .empty

end CaseClosed

namespace CSharp

open Target

variable {p : Char → Prop} {name : String}

/-- The spelling of members keeps to the sort of characters of their name. -/
theorem pascal_over (H : CaseClosed p) (h : Over p name) : Over p (pascal name) := by
  unfold pascal
  dsimp only
  split
  · exact h
  · refine Over.append ?_ (Over.join fun s hs => ?_)
    · unfold leadingUnderscores
      dsimp only
      split
      · exact .empty
      · cases hu : name.toList.takeWhile (· == '_') with
        | nil => exact .empty
        | cons c cs =>
          have hc : c ∈ name.toList.takeWhile (· == '_') := by rw [hu]; exact .head _
          have hp : p '_' := by
            have eq : c = '_' := by simpa using mem_takeWhile_imp hc
            exact eq ▸ h c (takeWhile_subset _ hc)
          refine Over.times (fun d hd => ?_) _
          have eq : d = '_' := by simpa using hd
          exact eq ▸ hp
    · obtain ⟨piece, hpiece, rfl⟩ := mem_map.mp hs
      exact H.capitalize fun c hc => h c (Text.mem_split hpiece hc)

theorem plain_pascal (h : Plain name) : Plain (pascal name) := pascal_over plainChar_caseClosed h

theorem mem_of_lookup {table : List (String × String)} {text : String}
    (h : table.lookup name = some text) : ∃ k, (k, text) ∈ table := by
  obtain ⟨before, behind, rfl, -⟩ := lookup_eq_some_iff.mp h
  exact ⟨name, by simp⟩

/-- Characters of ASCII other than line ends, semicolons, underscores, parentheses and braces. -/
def isLibraryChar (c : Char) : Bool := decide (c.toNat < 128) && ! [10, 40, 41, 59, 95, 123, 125].contains c.toNat

theorem functionNames_snug : ∀ e ∈ functionNames, snugBy isLibraryChar 0 e.2.toList = true ∧
    e.2.toList.head?.all (fun c => c.toNat != 9 && c.toNat != 32) = true := by
  simp only [functionNames, functionTable, forall_mem_append, forall_mem_map, String.toList_append]
  decide +kernel

theorem plain_functionName {e : String × String} (he : e ∈ functionNames) : Plain e.2 := by
  intro c hc
  rcases mem_of_snugBy hc (functionNames_snug e he).1 with h | h | h
  · exact ⟨by omega, by rintro rfl; cases h⟩
  · exact ⟨by omega, by rintro rfl; cases h⟩
  · obtain ⟨hsmall, hmarks⟩ := Bool.and_eq_true_iff.mp h
    refine ⟨of_decide_eq_true hsmall, ?_⟩
    rintro rfl
    cases hmarks

theorem plain_variableName (s : Settings) (h : Plain name) : Plain (variableName s name) := by
  unfold variableName
  cases hl : variableNames.lookup name with
  | some n =>
    obtain ⟨k, hk⟩ := mem_of_lookup hl
    have all : ∀ e ∈ variableNames, Plain e.2 := by decide
    exact all _ hk
  | none =>
    dsimp only
    split
    · refine Over.append (Over.append (by decide) (plain_pascal ?_)) (by decide)
      exact plainChar_caseClosed.lowered (h.replaceAll .empty nofun)
    · exact h

theorem plain_callName (caller : Ty) (h : Plain name) : Plain (callName caller name) := by
  apply plain_pascal
  split
  · cases hl : functionNames.lookup name with
    | some n =>
      obtain ⟨k, hk⟩ := mem_of_lookup hl
      exact plain_functionName hk
    | none => exact h
  · split
    · split
      · decide
      · split
        · decide
        · exact h
    · exact h

/-- The spelling of a type keeps to the sort of characters of its name. -/
theorem typeName_over (hp : Over p "Array<>Godot.double") (s : Settings)
    (t : ClassTable) (h : Over p name) : Over p (typeName s t (some name)) := by
  have part {text : String} (ht : ∀ c ∈ text.toList, c ∈ "Array<>Godot.double".toList) : Over p text :=
    fun c hc => hp c (ht c hc)
  unfold typeName
  dsimp only
  split
  · exact Over.append (Over.append (part (by decide)) (h.dropEnd 2)) (part (by decide))
  · split
    · exact h.dropEnd 4
    · split
      · exact part (by decide)
      · split
        · exact h
        · split
          · exact Over.append (part (by decide)) h
          · exact h

theorem plain_typeName (s : Settings) (t : ClassTable) (h : Plain name) :
    Plain (typeName s t (some name)) := typeName_over (by decide) s t h

end CSharp

end GdScribe
