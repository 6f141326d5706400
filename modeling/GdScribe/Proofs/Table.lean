import GdScribe.Script.Reader
import Mathlib.Data.List.Forall2

/-!
# Looking up in tables

What `Table.put` and the changes of a class table do to look-ups.

Principal results: `Table.find?_put`, `Table.mem_keys_put`, `ClassTable.info_update` and
`ClassTable.info_declare`.
-/

namespace GdScribe

/-- A list of names with one more, if it is new. -/
def addName (names : List String) (n : String) : List String := if n ∈ names then names else names ++ [n]

theorem addName_idem (names : List String) (n : String) : addName (addName names n) n = addName names n := by
  by_cases h : n ∈ names <;> simp [addName, h]

namespace Table

variable {α : Type} (t : Table α) (name : String) (value : α)

theorem find?_put (n : String) : (t.put name value).find? n = if name = n then some value else t.find? n := by
  unfold find? put
  induction t.entries with
  | nil => rfl
  | cons e es ih =>
    rw [set]
    by_cases he : e.1 = name
    · rw [if_pos he, find, find, he]
      by_cases hn : name = n
      · rw [if_pos hn, if_pos hn]
      · rw [if_neg hn, if_neg hn, if_neg hn]
    · rw [if_neg he, find, find, ih]
      by_cases hn : e.1 = n
      · rw [if_pos hn, if_pos hn, if_neg fun h => he (hn.trans h.symm)]
      · rw [if_neg hn, if_neg hn]

theorem contains_put (n : String) : (t.put name value).contains n = (decide (name = n) || t.contains n) := by
  unfold contains
  rw [find?_put]
  by_cases h : name = n
  · simp [h]
  · simp [h]

variable {t} {n : String}

theorem mem_keys_iff : n ∈ t.keys ↔ t.contains n = true := by
  unfold keys contains find?
  induction t.entries with
  | nil => simp [find]
  | cons e es ih =>
    rw [find, List.map_cons, List.mem_cons, ih]
    by_cases h : e.1 = n
    · simp [h]
    · simp [h, Ne.symm h]

theorem mem_keys_put : n ∈ (t.put name value).keys ↔ name = n ∨ n ∈ t.keys := by
  rw [mem_keys_iff, mem_keys_iff, contains_put]
  simp

theorem exists_of_contains (h : t.contains n = true) : ∃ v, t.find? n = some v :=
  Option.isSome_iff_exists.mp h

theorem exists_of_mem_keys (h : n ∈ t.keys) : ∃ v, t.find? n = some v :=
  exists_of_contains (mem_keys_iff.mp h)

theorem keys_put : (t.put name value).keys = addName t.keys name := by
  obtain ⟨es⟩ := t
  show (set name value es).map (·.1) = addName (es.map (·.1)) name
  induction es with
  | nil => rfl
  | cons e es ih =>
    rw [set]
    by_cases h : e.1 = name
    · rw [if_pos h, addName, if_pos (by simp [h])]
      simp [h]
    · rw [if_neg h, List.map_cons, ih, addName, addName]
      simp only [List.map_cons, List.mem_cons, Ne.symm h, false_or]
      split <;> rfl

/-- Tables in which the same is found, in whatever order it was put in. -/
def Alike (t u : Table α) : Prop := ∀ n, t.find? n = u.find? n

variable {u : Table α}

theorem Alike.contains (h : t.Alike u) (n : String) : t.contains n = u.contains n :=
  congrArg Option.isSome (h n)

variable {β : Type} {u : Table β} {R : α → β → Prop}

/-- Tables with the same names in the same order and with related values. -/
def Rel (R : α → β → Prop) (t : Table α) (u : Table β) : Prop :=
  List.Forall₂ (fun e f => e.1 = f.1 ∧ R e.2 f.2) t.entries u.entries

theorem Rel.find? (h : Rel R t u) (n : String) : Option.Rel R (t.find? n) (u.find? n) := by
  obtain ⟨as⟩ := t
  obtain ⟨bs⟩ := u
  show Option.Rel R (find n as) (find n bs)
  change List.Forall₂ _ as bs at h
  induction h with
  | nil => exact .none
  | @cons e f _ _ he _ ih =>
    rw [find, find, ← he.1]
    split
    · exact .some he.2
    · exact ih

theorem Rel.contains (h : Rel R t u) (n : String) : t.contains n = u.contains n := by
  have hn := h.find? n
  unfold Table.contains
  generalize t.find? n = a, u.find? n = b at hn ⊢
  cases hn <;> rfl

theorem Rel.put (h : Rel R t u) {a : α} {b : β} (hab : R a b) : Rel R (t.put name a) (u.put name b) := by
  obtain ⟨as⟩ := t
  obtain ⟨bs⟩ := u
  show List.Forall₂ _ (set name a as) (set name b bs)
  change List.Forall₂ _ as bs at h
  induction h with
  | nil => exact .cons ⟨rfl, hab⟩ .nil
  | cons he hs ih =>
    rw [set, set, ← he.1]
    split
    · exact .cons ⟨rfl, hab⟩ hs
    · exact .cons ⟨rfl, he.2⟩ ih

theorem Rel.erase (h : Rel R t u) : Rel R (t.erase name) (u.erase name) := by
  obtain ⟨as⟩ := t
  obtain ⟨bs⟩ := u
  show List.Forall₂ _ (as.filter _) (bs.filter _)
  change List.Forall₂ _ as bs at h
  induction h with
  | nil => exact .nil
  | cons he hs ih =>
    rw [List.filter_cons, List.filter_cons, ← he.1]
    split
    · exact .cons he ih
    · exact ih

end Table

namespace ClassTable

variable (t : ClassTable) (name base : String) (f : ClassInfo → ClassInfo)

theorem contains_update (n : String) : (t.update name f).contains n = (decide (name = n) || t.contains n) :=
  t.contains_put name _ n

theorem info_update (n : String) : (t.update name f).info n = if name = n then f (t.info n) else t.info n := by
  unfold info update
  rw [Table.find?_put]
  by_cases h : name = n
  · rw [if_pos h, if_pos h, h]
    rfl
  · rw [if_neg h, if_neg h]

theorem contains_declare (n : String) : (t.declare name base).contains n = (decide (name = n) || t.contains n) := by
  unfold declare
  by_cases h : t.contains name = true
  · rw [if_pos h]
    by_cases hn : name = n
    · simp [← hn, h]
    · simp [hn]
  · rw [if_neg h]
    exact t.contains_put name _ n

theorem info_declare (hnew : t.contains name = false) (n : String) :
    (t.declare name base).info n = if name = n then { base := some base } else t.info n := by
  unfold declare info
  rw [if_neg (by rw [hnew]; decide), Table.find?_put]
  by_cases h : name = n
  · rw [if_pos h, if_pos h]
    rfl
  · rw [if_neg h, if_neg h]

variable {t} {u : ClassTable} (h : t.Alike u)

include h

theorem info_alike (n : String) : t.info n = u.info n := by
  unfold info
  rw [h n]

theorem parent_alike (n : String) : t.parent n = u.parent n := by
  unfold parent
  rw [info_alike h, info_alike h, funext h]

end ClassTable

end GdScribe
