import GdScribe.ClassTable.Flatten
import GdScribe.Proofs.Table
import Mathlib.Data.Finset.Card
import Mathlib.Data.List.Nodup

/-!
# Links between classes and their bases

A class table links each class whose base is set to that base. The links are followed upwards.

* `ClassTable.Ranked`: numbers that fall along the links.

Principal results: `parentsPrecede_iff`, `not_hasCycle_of_ranked` and `lt_length_of_ancestor`.
-/

namespace GdScribe

open List

namespace Table

variable {α : Type} {t : Table α} {n : String} {v : α}

theorem mem_of_find? (h : t.find? n = some v) : (n, v) ∈ t.entries := by
  obtain ⟨es⟩ := t
  unfold find? at h
  induction es with
  | nil => cases h
  | cons e es ih =>
    rw [find] at h
    split at h
    · rename_i he
      cases h
      rw [← he]
      exact .head _
    · exact mem_cons_of_mem e (ih h)

theorem find?_of_mem (hd : t.keys.Nodup) (h : (n, v) ∈ t.entries) : t.find? n = some v := by
  obtain ⟨es⟩ := t
  unfold find?
  unfold keys at hd
  induction es with
  | nil => cases h
  | cons e es ih =>
    rw [map_cons, nodup_cons] at hd
    rw [find]
    rcases mem_cons.mp h with rfl | h
    · exact if_pos rfl
    · have hne : e.1 ≠ n := fun he => hd.1 (he ▸ mem_map_of_mem h)
      rw [if_neg hne]
      exact ih hd.2 h

end Table

/-- The base of a class, if it is set: an empty name stands for no base. -/
def ClassInfo.setBase (c : ClassInfo) : Option String := c.base.filter fun b => !b.isEmpty

namespace ClassTable

variable (t : ClassTable)

/-- The base of a class of the table, if it is set. -/
def baseOf (c : String) : Option String := (t.find? c).bind ClassInfo.setBase

/-- The class that stands `n` links above a class. -/
def ancestor (c : String) : Nat → Option String
  | 0 => some c
  | n + 1 => (ancestor c n).bind t.baseOf

/-- A class is its own ancestor. -/
def HasCycle : Prop := ∃ c n, 0 < n ∧ t.ancestor c n = some c

/-- Every base that is set is a class of the table. -/
def BasesKnown : Prop := ∀ c b, t.baseOf c = some b → t.contains b = true

/-- Numbers that are smaller for a base than for the classes derived from it. -/
def Ranked (rank : String → Nat) : Prop := ∀ c b, t.baseOf c = some b → rank b < rank c

/-- Where a class stands in the table. -/
def place (c : String) : Nat := t.keys.idxOf c

variable {t}

/-! ## Ancestors -/

theorem ancestor_one (c : String) : t.ancestor c 1 = t.baseOf c := rfl

theorem ancestor_add (c : String) (m n : Nat) :
    t.ancestor c (m + n) = (t.ancestor c m).bind fun a => t.ancestor a n := by
  induction n with
  | zero => cases t.ancestor c m <;> rfl
  | succ n ih =>
    rw [← Nat.add_assoc, ancestor, ih]
    cases t.ancestor c m <;> rfl

variable {c b x : String}

theorem ancestor_succ_of_base (h : t.baseOf c = some b) (n : Nat) : t.ancestor c (n + 1) = t.ancestor b n := by
  rw [Nat.add_comm, ancestor_add, ancestor_one, h]
  rfl

variable {n : Nat} {rank : String → Nat}

theorem ancestor_of_le {m : Nat} (hle : m ≤ n) (h : (t.ancestor c n).isSome = true) :
    (t.ancestor c m).isSome = true := by
  obtain ⟨k, rfl⟩ := Nat.exists_eq_add_of_le hle
  rw [ancestor_add] at h
  cases hm : t.ancestor c m with
  | none => rw [hm] at h; cases h
  | some a => rfl

theorem contains_of_baseOf (h : t.baseOf c = some b) : t.contains c = true := by
  unfold baseOf at h
  unfold Table.contains
  cases hf : t.find? c with
  | none => rw [hf] at h; cases h
  | some info => rfl

/-- A class with an ancestor further up has a base, so it is a class of the table. -/
theorem mem_keys_of_ancestor (hx : t.ancestor c n = some x) (hb : t.ancestor c (n + 1) = some b) : x ∈ t.keys := by
  rw [ancestor, hx] at hb
  exact Table.mem_keys_iff.mpr (contains_of_baseOf hb)

theorem rank_ancestor (hr : t.Ranked rank) {a : String} (h : t.ancestor c n = some a) : rank a + n ≤ rank c := by
  induction n generalizing a with
  | zero => cases h; exact le_refl _
  | succ n ih =>
    obtain ⟨x, hx, hb⟩ := Option.bind_eq_some_iff.mp h
    have step := hr x a hb
    have rest := ih hx
    omega

theorem not_hasCycle_of_ranked (hr : t.Ranked rank) : ¬ t.HasCycle := by
  rintro ⟨c, n, hn, hc⟩
  have := rank_ancestor hr hc
  omega

theorem ancestor_injective (hc : ¬ t.HasCycle) {m : Nat}
    (hm : t.ancestor c m = some x) (hn : t.ancestor c n = some x) : m = n := by
  have less {m n : Nat} (hm : t.ancestor c m = some x) (hn : t.ancestor c n = some x) : ¬ m < n := by
    intro hlt
    obtain ⟨k, rfl⟩ := Nat.exists_eq_add_of_le (le_of_lt hlt)
    rw [ancestor_add, hm] at hn
    exact hc ⟨x, k, by omega, hn⟩
  have := less hm hn
  have := less hn hm
  omega

/-- **Without a cycle there are fewer links above a class than classes.** The classes on the way up
are different, and all but the last have a base. -/
theorem lt_length_of_ancestor (hb : t.BasesKnown) (hc : ¬ t.HasCycle)
    (hmem : c ∈ t.keys) (h : t.ancestor c n = some x) : n < t.keys.length := by
  have some_of_le (i : Nat) (hi : i ≤ n) : ∃ y, t.ancestor c i = some y :=
    Option.isSome_iff_exists.mp (ancestor_of_le hi (by rw [h]; rfl))
  have known (i : Nat) (hi : i ≤ n) : (t.ancestor c i).getD "" ∈ t.keys.toFinset := by
    rw [mem_toFinset]
    cases i with
    | zero => exact hmem
    | succ i =>
      obtain ⟨y, hy⟩ := some_of_le (i + 1) hi
      rw [hy]
      obtain ⟨z, -, hz⟩ := Option.bind_eq_some_iff.mp hy
      exact Table.mem_keys_iff.mpr (hb z y hz)
  have card := Finset.card_le_card_of_injOn (s := Finset.range (n + 1))
    (fun i => (t.ancestor c i).getD "")
    (fun i hi => known i (Nat.le_of_lt_succ (mem_range.mp hi)))
    (fun i hi j hj hij => by
      obtain ⟨y, hy⟩ := some_of_le i (Nat.le_of_lt_succ (mem_range.mp hi))
      obtain ⟨z, hz⟩ := some_of_le j (Nat.le_of_lt_succ (mem_range.mp hj))
      have same : y = z := by simpa [hy, hz] using hij
      exact ancestor_injective hc hy (same ▸ hz))
  rw [Finset.card_range] at card
  exact lt_of_lt_of_le (Nat.lt_succ_self n) (le_trans card t.keys.toFinset_card_le)

/-! ## The order of the classes -/

theorem setBase_eq_some_iff {c : ClassInfo} : c.setBase = some b ↔ c.base = some b ∧ b.isEmpty = false := by
  unfold ClassInfo.setBase
  simp

/-- **What is checked of an order**: each base that is a class of the table stands before the classes
derived from it. -/
theorem parentsPrecede_iff (before : List String) (order : List (String × ClassInfo)) :
    parentsPrecede t before order = true ↔
      ∀ done c info rest b, order = done ++ (c, info) :: rest → info.setBase = some b →
        t.contains b = true → b ∈ before ∨ b ∈ done.map (·.1) := by
  induction order generalizing before with
  | nil => simp [parentsPrecede]
  | cons e order ih =>
    obtain ⟨name, own⟩ := e
    have head : parentsPrecede t before ((name, own) :: order) = true ↔
        (∀ b, own.setBase = some b → t.contains b = true → b ∈ before) ∧
          parentsPrecede t (name :: before) order = true := by
      rw [parentsPrecede, Bool.and_eq_true]
      refine and_congr_left fun _ => ?_
      cases hb : own.base with
      | none =>
        simp only [true_iff]
        intro b hs
        rw [setBase_eq_some_iff, hb] at hs
        cases hs.1
      | some base =>
        simp only [Bool.or_eq_true, Bool.not_eq_true', contains_iff_mem]
        constructor
        · intro h b hs hk
          obtain ⟨he, hn⟩ := setBase_eq_some_iff.mp hs
          obtain rfl : base = b := Option.some.inj (hb.symm.trans he)
          rcases h with (h | h) | h
          · exact absurd (hn.symm.trans h) Bool.false_ne_true
          · exact absurd (h.symm.trans hk) Bool.false_ne_true
          · exact h
        · intro h
          by_cases hn : base.isEmpty = true
          · exact .inl (.inl hn)
          by_cases hk : t.contains base = true
          · exact .inr (h base (setBase_eq_some_iff.mpr ⟨hb, by simpa using hn⟩) hk)
          · exact .inl (.inr (by simpa using hk))
    rw [head, ih]
    constructor
    · rintro ⟨hfirst, hrest⟩ done c info rest b heq hs hk
      cases done with
      | nil =>
        obtain ⟨he, -⟩ := cons.inj heq
        cases he
        exact .inl (hfirst b hs hk)
      | cons d done =>
        obtain ⟨rfl, hrows⟩ := cons.inj heq
        rcases hrest done c info rest b hrows hs hk with h | h
        · rcases mem_cons.mp h with rfl | h
          · exact .inr mem_cons_self
          · exact .inl h
        · exact .inr (.tail _ h)
    · intro h
      refine ⟨fun b hs hk => ?_, fun done c info rest b heq hs hk => ?_⟩
      · simpa using h [] name own order b rfl hs hk
      · rcases h ((name, own) :: done) c info rest b (by rw [heq]; rfl) hs hk with h | h
        · exact .inl (.tail _ h)
        · rcases mem_cons.mp h with rfl | h
          · exact .inl mem_cons_self
          · exact .inr h

theorem perm_parentsFirst (classes : List (String × ClassInfo)) : (parentsFirst classes).Perm classes := by
  refine (reverse_perm _).trans (((mergeSort_perm ..).map _).trans ?_)
  rw [map_map]
  exact (map_id' classes).symm ▸ .rfl

end ClassTable

end GdScribe
