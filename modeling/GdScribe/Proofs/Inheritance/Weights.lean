import GdScribe.Proofs.Inheritance.Merge
import Mathlib.Algebra.BigOperators.Group.Finset.Piecewise
import Mathlib.Algebra.Order.BigOperators.Group.Finset
import Mathlib.Data.Nat.Choose.Basic

/-!
# Which hierarchies can be put in order

Before they are merged, the classes are ordered by weights that are passed on to base classes in ten
rounds. What a class adds to the weight of a class further up is a binomial coefficient: it counts the
rounds in which the links in between can be passed, one after another, and a link to a class that is
listed earlier takes a round more.

* `ClassTable.delays`: the links on the way up that lead to a class listed earlier.
* `ClassTable.Outweighs`: a class comes before its base in the order.

Principal results: `weights_eq_standing`, `parentsPrecede_iff_outweighs` and
`order_fails_iff_outweighs`. A hierarchy can be put in order if no class has six classes above it;
`wideHierarchy` is one with six that cannot.
-/

namespace GdScribe.ClassTable

open Finset

variable (t : ClassTable)

/-! ## Shares -/

/-- Whether the link above the class `n` links above `c` leads to a class that is listed earlier. -/
def turnsBack (c : String) (n : Nat) : Prop :=
  ∃ x y, t.ancestor c n = some x ∧ t.ancestor c (n + 1) = some y ∧ t.place y < t.place x

instance (c : String) (n : Nat) : Decidable (t.turnsBack c n) :=
  match hx : t.ancestor c n, hy : t.ancestor c (n + 1) with
  | some x, some y => decidable_of_iff (t.place y < t.place x) (by simp [turnsBack, hx, hy])
  | none, _ => isFalse (by simp [turnsBack, hx])
  | some _, none => isFalse (by simp [turnsBack, hy])

/-- How many of the first `n` links above a class lead to a class that is listed earlier. -/
def delays (c : String) : Nat → Nat
  | 0 => 0
  | n + 1 => delays c n + if t.turnsBack c n then 1 else 0

/-- What a class adds in some rounds to the weight of the class `n + 1` links above it. -/
def share (rounds : Nat) (c : String) (n : Nat) : Nat := (rounds + n - t.delays c n).choose (n + 1)

/-- The weight of a class: the shares of all classes below it. -/
def standing (x : String) : Nat :=
  ∑ d ∈ t.keys.toFinset, ∑ n ∈ range t.keys.length,
    if t.ancestor d (n + 1) = some x then t.share rounds d n else 0

/-- A class is at least as heavy as its base, and on a tie it is listed later. -/
def Outweighs (c b : String) : Prop :=
  t.standing b < t.standing c ∨ (t.standing b = t.standing c ∧ t.place b < t.place c)

variable {t}

theorem delays_le (c : String) (n : Nat) : t.delays c n ≤ n := by
  induction n with
  | zero => exact le_refl 0
  | succ n ih =>
    rw [delays]
    split <;> omega

/-! ## Weights in the middle of a round -/

/-- Whether the class `n` links above `d` is among the first `j` classes of the table. -/
def passed (t : ClassTable) (j : Nat) (d : String) (n : Nat) : Nat :=
  if ∃ x, t.ancestor d n = some x ∧ t.place x < j then 1 else 0

/-- What `d` has added to the weight of `x` after some rounds and the first `j` classes of the next. -/
def added (t : ClassTable) (r j : Nat) (x d : String) (n : Nat) : Nat :=
  if t.ancestor d (n + 1) = some x then (r + passed t j d n + n - t.delays d n).choose (n + 1) else 0

/-- The weight of a class after some rounds and the first `j` classes of the next. -/
def standingAt (t : ClassTable) (r j : Nat) (x : String) : Nat :=
  ∑ d ∈ t.keys.toFinset, ∑ n ∈ range t.keys.length, added t r j x d n

theorem standingAt_zero (x : String) : standingAt t 0 0 x = 0 := by
  refine sum_eq_zero fun d _ => sum_eq_zero fun n _ => ?_
  have none_passed : passed t 0 d n = 0 := if_neg (by simp)
  unfold added
  split
  · rw [none_passed]
    exact Nat.choose_eq_zero_of_lt (by omega)
  · rfl

theorem standingAt_round (r : Nat) (x : String) : standingAt t r t.keys.length x = standingAt t (r + 1) 0 x := by
  refine sum_congr rfl fun d _ => sum_congr rfl fun n _ => ?_
  unfold added
  split
  · rename_i hx
    obtain ⟨y, hy⟩ := Option.isSome_iff_exists.mp
      (ancestor_of_le (Nat.le_succ n) (by rw [hx]; rfl) : (t.ancestor d n).isSome = true)
    have hall : passed t t.keys.length d n = 1 :=
      if_pos ⟨y, hy, List.idxOf_lt_length_of_mem (mem_keys_of_ancestor hy hx)⟩
    have hnone : passed t 0 d n = 0 := if_neg (by simp)
    rw [hall, hnone]
  · rfl

/-! ## One class passes its weight on -/

section Step

variable {c : String} {j : Nat}

variable {x : String}

theorem place_injective {y : String} (hx : x ∈ t.keys) (h : t.place x = t.place y) : x = y := by
  exact (List.idxOf_inj hx).mp h

section

variable (hc : c ∈ t.keys) (hj : t.place c = j)

include hc hj

theorem passed_succ (d : String) (n : Nat) :
    passed t (j + 1) d n = passed t j d n + if t.ancestor d n = some c then 1 else 0 := by
  unfold passed
  cases ha : t.ancestor d n with
  | none => simp
  | some x =>
    by_cases hx : x = c
    · subst hx
      simp [hj]
    · have hne : t.place x ≠ j := fun h => hx (place_injective hc (hj.trans h.symm)).symm
      have hiff : t.place x ≤ j ↔ t.place x < j := by omega
      simp [hx, hiff]

/-- Nothing moves on a way that does not lead through the class that is taken to its base. -/
theorem added_succ_of_not {r : Nat} {d : String} {n : Nat}
    (h : ¬ (t.ancestor d n = some c ∧ t.baseOf c = some x)) : added t r (j + 1) x d n = added t r j x d n := by
  unfold added
  split
  · rename_i hx
    have other : ¬ t.ancestor d n = some c := by
      intro hd
      rw [ancestor, hd] at hx
      exact h ⟨hd, hx⟩
    rw [passed_succ hc hj, if_neg other, add_zero]
  · rfl

theorem added_succ_own (r : Nat)
    (hx : t.baseOf c = some x) : added t r (j + 1) x c 0 = added t r j x c 0 + 1 := by
  have own : t.ancestor c 0 = some c := rfl
  have above : t.ancestor c (0 + 1) = some x := hx
  unfold added
  rw [if_pos above, if_pos above, passed_succ hc hj, if_pos own]
  simp only [delays, zero_add, Nat.choose_one_right]
  omega

end

/-- A class passes on what has been added to it. Both sides count the rounds so far, those of the links
up to the class one earlier: Pascal's rule. -/
theorem added_succ_passes (hcycle : ¬ t.HasCycle) (hc : c ∈ t.keys) (hj : t.place c = j) (r : Nat)
    {d : String} {n : Nat} (hd : t.ancestor d (n + 1) = some c) (hx : t.baseOf c = some x) :
    added t r (j + 1) x d (n + 1) = added t r j x d (n + 1) + added t r j c d n := by
  have above : t.ancestor d (n + 1 + 1) = some x := by rw [ancestor, hd]; exact hx
  obtain ⟨y, hy⟩ := Option.isSome_iff_exists.mp
    (ancestor_of_le (Nat.le_succ n) (by rw [hd]; rfl) : (t.ancestor d n).isSome = true)
  have hne : t.place y ≠ j := by
    intro h
    have same : y = c := (place_injective hc (hj.trans h.symm)).symm
    have := ancestor_injective hcycle hy (same ▸ hd)
    omega
  have before : passed t j d (n + 1) = 0 := if_neg (by simp [hd, hj])
  have turns : t.turnsBack d n ↔ j < t.place y := by simp [turnsBack, hy, hd, hj]
  -- the way up to `c` is open in this round exactly if it does not turn back at `c`
  have rounds : r + passed t j d n + n - t.delays d n = r + (n + 1) - t.delays d (n + 1) := by
    rw [delays]
    by_cases hlt : t.place y < j
    · have here : passed t j d n = 1 := if_pos ⟨y, hy, hlt⟩
      rw [if_neg (by rw [turns]; omega)]
      omega
    · have later : passed t j d n = 0 := if_neg (by simp [hy]; omega)
      rw [if_pos (by rw [turns]; omega)]
      omega
  have hle := delays_le (t := t) d (n + 1)
  have more : r + (0 + 1) + (n + 1) - t.delays d (n + 1) = r + 0 + (n + 1) - t.delays d (n + 1) + 1 := by
    omega
  unfold added
  rw [if_pos above, if_pos above, if_pos hd, passed_succ hc hj, if_pos hd, before, more, rounds]
  exact add_comm ..

/-- **One class passes its weight on** to its base. -/
theorem standingAt_succ (hb : t.BasesKnown) (hcycle : ¬ t.HasCycle) (hc : c ∈ t.keys) (hj : t.place c = j)
    (r : Nat) (x : String) :
    standingAt t r (j + 1) x = standingAt t r j x + if t.baseOf c = some x then standingAt t r j c + 1 else 0 := by
  by_cases hx : t.baseOf c = some x
  · obtain ⟨m, hm⟩ := Nat.exists_eq_add_one_of_ne_zero (List.length_pos_of_mem hc).ne'
    have each (d : String) (hd : d ∈ t.keys) : ∑ n ∈ range t.keys.length, added t r (j + 1) x d n =
          ∑ n ∈ range t.keys.length, added t r j x d n +
            (∑ n ∈ range t.keys.length, added t r j c d n + if d = c then 1 else 0) := by
      -- no way up is as long as the table
      have last : added t r j c d m = 0 := if_neg fun h => by
        have := lt_length_of_ancestor hb hcycle hd h
        omega
      have first : added t r (j + 1) x d 0 = added t r j x d 0 + if d = c then 1 else 0 := by
        split
        · rename_i he
          subst he
          exact added_succ_own hc hj r hx
        · rename_i hne
          exact added_succ_of_not hc hj fun h => hne (Option.some.inj h.1)
      have further (n : Nat) : added t r (j + 1) x d (n + 1) = added t r j x d (n + 1) + added t r j c d n := by
        by_cases hd : t.ancestor d (n + 1) = some c
        · exact added_succ_passes hcycle hc hj r hd hx
        · have nothing : added t r j c d n = 0 := if_neg hd
          rw [nothing]
          exact added_succ_of_not hc hj fun h => hd h.1
      rw [hm, sum_range_succ', sum_range_succ' (fun n => added t r j x d n),
        sum_range_succ (fun n => added t r j c d n),
        sum_congr rfl fun n _ => further n, sum_add_distrib]
      omega
    unfold standingAt
    rw [if_pos hx, sum_congr rfl fun d hd => each d (List.mem_toFinset.mp hd),
      sum_add_distrib, sum_add_distrib, sum_ite_eq',
      if_pos (List.mem_toFinset.mpr hc)]
  · rw [if_neg hx]
    exact sum_congr rfl fun d _ => sum_congr rfl fun n _ =>
      added_succ_of_not hc hj fun h => hx h.2

end Step

/-! ## The weights of the table -/

/-- The weight in a table of weights; a class that is not there has none. -/
def weightIn (w : Table Nat) (x : String) : Nat := (w.find? x).getD 0

theorem weightIn_addWeight (w : Table Nat) (c : String) (info : ClassInfo) (x : String) :
    weightIn (addWeight w (c, info)) x = weightIn w x + if info.setBase = some x then weightIn w c + 1 else 0 := by
  obtain ⟨w', hw', same⟩ : ∃ w', (if w.contains c = true then w else w.put c 0) = w' ∧
      ∀ y, weightIn w' y = weightIn w y := by
    refine ⟨_, rfl, fun y => ?_⟩
    split
    · rfl
    · rename_i hc
      unfold weightIn
      rw [Table.find?_put]
      split
      · rename_i he
        subst he
        have : w.find? c = none := by simpa [Table.contains] using hc
        rw [this]
        rfl
      · rfl
  unfold addWeight
  rw [hw']
  cases hb : info.base with
  | none =>
    have unset : info.setBase = none := by rw [ClassInfo.setBase, hb]; rfl
    simp [unset, same]
  | some b =>
    by_cases he : b.isEmpty = true
    · have unset : info.setBase = none := by simp [ClassInfo.setBase, hb, he, Option.filter]
      simp [unset, he, same]
    · have set : info.setBase = some b := setBase_eq_some_iff.mpr ⟨hb, by simpa using he⟩
      rw [set]
      dsimp only
      rw [if_neg he]
      show ((w'.put b (weightIn w' b + (weightIn w' c + 1))).find? x).getD 0 = _
      rw [Table.find?_put, same, same]
      by_cases hx : b = x
      · simp [hx]
      · simp only [if_neg hx, Option.some.injEq]
        exact same x

variable {rest : List (String × ClassInfo)} {l : List String}

theorem weightIn_foldl (hd : t.keys.Nodup) (hb : t.BasesKnown) (hcycle : ¬ t.HasCycle) (r : Nat)
    : ∀ (done : List (String × ClassInfo)) {w : Table Nat},
      t.entries = done ++ rest → (∀ x, weightIn w x = standingAt t r done.length x) →
      ∀ x, weightIn (rest.foldl addWeight w) x = standingAt t r t.keys.length x := by
  induction rest with
  | nil =>
    intro done w hsplit hw x
    have hlen : t.keys.length = done.length := by
      rw [Table.keys, hsplit, List.append_nil, List.length_map]
    rw [hlen]
    exact hw x
  | cons e rest ih =>
    obtain ⟨c, info⟩ := e
    intro done w hsplit hw
    have hmem : (c, info) ∈ t.entries := by rw [hsplit]; simp
    have hfind : t.find? c = some info := Table.find?_of_mem hd hmem
    have hkey : c ∈ t.keys := List.mem_map_of_mem hmem
    have hplace : t.place c = done.length := by
      have distinct := hd
      rw [Table.keys, hsplit, List.map_append, List.nodup_append] at distinct
      have before : c ∉ done.map (·.1) := fun hm => distinct.2.2 c hm c List.mem_cons_self rfl
      rw [place, Table.keys, hsplit, List.map_append, List.idxOf_append_of_notMem before,
        List.map_cons, List.idxOf_cons_self, List.length_map, add_zero]
    refine ih (done ++ [(c, info)]) (by rw [hsplit]; simp) fun x => ?_
    rw [weightIn_addWeight, hw, hw, List.length_append, List.length_singleton,
      standingAt_succ hb hcycle hkey hplace, baseOf_of_find? hfind]

/-- **Weights are sums of shares**, as long as no class is its own ancestor. -/
theorem weights_eq_standing (hd : t.keys.Nodup) (hb : t.BasesKnown) (hcycle : ¬ t.HasCycle) (x : String) :
    weightIn (weights t.entries) x = t.standing x := by
  have all (r : Nat) : ∀ x, weightIn
      ((List.range r).foldl (fun w _ => t.entries.foldl addWeight w) ({} : Table Nat)) x = standingAt t r 0 x := by
    induction r with
    | zero => exact fun x => (standingAt_zero x).symm
    | succ r ih =>
      intro x
      rw [List.range_succ, List.foldl_append, ← standingAt_round]
      exact weightIn_foldl hd hb hcycle r [] rfl ih x
  have whole : standingAt t rounds 0 x = t.standing x := by
    refine sum_congr rfl fun d _ => sum_congr rfl fun n _ => ?_
    have none_passed : passed t 0 d n = 0 := if_neg (by simp)
    rw [added, none_passed]
    rfl
  exact (all rounds x).trans whole

/-! ## The order -/

/-- The names in the order of the classes are sorted by weight, the heaviest first. -/
theorem names_parentsFirst (t : ClassTable) : (parentsFirst t.entries).map (·.1) = (t.keys.mergeSort fun a b =>
      decide (weightIn (weights t.entries) a ≤ weightIn (weights t.entries) b)).reverse := by
  unfold parentsFirst
  rw [List.map_reverse, List.map_map]
  refine congrArg List.reverse ((List.map_mergeSort (s := fun a b =>
    decide (weightIn (weights t.entries) a ≤ weightIn (weights t.entries) b)) fun a ha b hb => ?_).trans ?_)
  · obtain ⟨x, -, rfl⟩ := List.mem_map.mp ha
    obtain ⟨y, -, rfl⟩ := List.mem_map.mp hb
    rfl
  · rw [List.map_map]
    rfl

/-- Of two classes the lighter one is sorted first, and of two that weigh the same the one that is
listed first. -/
theorem sorted_before_iff (hl : l.Nodup) (f : String → Nat) {a b : String} (ha : a ∈ l)
    (hb : b ∈ l) (hne : a ≠ b) : [a, b].Sublist (l.mergeSort fun a b => decide (f a ≤ f b)) ↔
      f a < f b ∨ (f a = f b ∧ [a, b].Sublist l) := by
  have trans (a b c : String) : decide (f a ≤ f b) = true → decide (f b ≤ f c) = true →
      decide (f a ≤ f c) = true := by
    simpa using le_trans
  have total (a b : String) : (decide (f a ≤ f b) || decide (f b ≤ f a)) = true := by
    simpa using le_total (f a) (f b)
  have perm := List.mergeSort_perm l fun a b => decide (f a ≤ f b)
  have nodup : (l.mergeSort fun a b => decide (f a ≤ f b)).Nodup := perm.nodup_iff.mpr hl
  have sorted {x y : String} (h : [x, y].Sublist (l.mergeSort fun a b => decide (f a ≤ f b))) : f x ≤ f y := by
    simpa using List.pairwise_iff_forall_sublist.mp (List.pairwise_mergeSort trans total l) h
  have one (l : List String) (hl : l.Nodup) (ha : a ∈ l) (hb : b ∈ l) : [a, b].Sublist l ↔ ¬ [b, a].Sublist l := by
    rw [pair_sublist_iff hl ha hb, pair_sublist_iff hl hb ha]
    have : l.idxOf a ≠ l.idxOf b := fun h => hne ((List.idxOf_inj ha).mp h)
    omega
  constructor
  · intro h
    rcases lt_or_eq_of_le (sorted h) with hlt | heq
    · exact .inl hlt
    · refine .inr ⟨heq, (one l hl ha hb).mpr fun hba => ?_⟩
      have := List.pair_sublist_mergeSort trans total (by simp [heq]) hba
      exact (one _ nodup (perm.mem_iff.mpr ha) (perm.mem_iff.mpr hb)).mp h this
  · rintro (hlt | ⟨heq, h⟩)
    · refine (one _ nodup (perm.mem_iff.mpr ha) (perm.mem_iff.mpr hb)).mpr fun hba => ?_
      have := sorted hba
      omega
    · exact List.pair_sublist_mergeSort trans total (by simp [heq]) h

/-- What is checked of the order of the classes, in terms of their names. -/
theorem parentsPrecede_iff_sublist (hd : t.keys.Nodup) (hb : t.BasesKnown) :
    parentsPrecede t [] (parentsFirst t.entries) = true ↔
      ∀ c b, t.baseOf c = some b → [b, c].Sublist ((parentsFirst t.entries).map (·.1)) := by
  refine ⟨fun h _ _ => sublist_of_parentsPrecede hd hb h, fun h => (parentsPrecede_iff ..).mpr ?_⟩
  intro done c info rest b hsplit hs _
  have hinfo : t.find? c = some info := (mem_parentsFirst_iff hd).mp (by rw [hsplit]; simp)
  have sub := h c b (by rw [baseOf_of_find? hinfo]; exact hs)
  have distinct := nodup_parentsFirst hd
  have hbmem : b ∈ (parentsFirst t.entries).map (·.1) := sub.subset (by simp)
  have hcmem : c ∈ (parentsFirst t.entries).map (·.1) := sub.subset (by simp)
  rw [pair_sublist_iff distinct hbmem hcmem] at sub
  rw [hsplit, List.map_append, List.map_cons] at sub distinct
  by_contra hnot
  have outside : b ∉ done.map (·.1) := fun hm => hnot (.inr hm)
  have before : c ∉ done.map (·.1) := fun hm =>
    (List.nodup_append.mp distinct).2.2 c hm c List.mem_cons_self rfl
  rw [List.idxOf_append_of_notMem outside, List.idxOf_append_of_notMem before, List.idxOf_cons_self] at sub
  omega

/-- **The order is right exactly if no class outweighs its base.** -/
theorem parentsPrecede_iff_outweighs (hd : t.keys.Nodup) (hb : t.BasesKnown) (hcycle : ¬ t.HasCycle) :
    parentsPrecede t [] (parentsFirst t.entries) = true ↔ ∀ c b, t.baseOf c = some b → ¬ t.Outweighs c b := by
  rw [parentsPrecede_iff_sublist hd hb]
  refine forall_congr' fun c => forall_congr' fun b => forall_congr' fun hcb => ?_
  have hc : c ∈ t.keys := Table.mem_keys_iff.mpr (contains_of_baseOf hcb)
  have hbk : b ∈ t.keys := Table.mem_keys_iff.mpr (hb c b hcb)
  have hne : c ≠ b := by
    rintro rfl
    exact hcycle ⟨c, 1, one_pos, hcb⟩
  have hplace : t.place c ≠ t.place b := fun h => hne (place_injective hc h)
  have turned : [b, c].Sublist ((parentsFirst t.entries).map (·.1)) ↔ [c, b].Sublist (t.keys.mergeSort fun a b =>
        decide (weightIn (weights t.entries) a ≤ weightIn (weights t.entries) b)) := by
    rw [names_parentsFirst, ← List.reverse_sublist, List.reverse_reverse]
    rfl
  rw [turned, sorted_before_iff hd _ hc hbk hne, pair_sublist_iff hd hc hbk,
    weights_eq_standing hd hb hcycle, weights_eq_standing hd hb hcycle]
  unfold Outweighs
  show t.standing c < t.standing b ∨ (t.standing c = t.standing b ∧ t.place c < t.place b) ↔ _
  omega

/-! ## Shallow hierarchies -/

theorem share_le_share_succ (d : String) {n : Nat} (hn : n ≤ 3) : t.share rounds d n ≤ t.share rounds d (n + 1) := by
  have hle := delays_le (t := t) d n
  have hstep : t.delays d (n + 1) ≤ t.delays d n + 1 := by
    rw [delays]
    split <;> omega
  calc t.share rounds d n ≤ (rounds + n - t.delays d n).choose (n + 1 + 1) :=
        Nat.choose_le_succ_of_lt_half_left (by unfold rounds; omega)
    _ ≤ t.share rounds d (n + 1) := Nat.choose_le_choose _ (by omega)

/-- With at most five classes above each class there is no cycle: it could be followed for ever. -/
theorem not_hasCycle_of_shallow (hshallow : ∀ c, t.ancestor c 6 = none) : ¬ t.HasCycle := by
  rintro ⟨d, n, hn, h⟩
  have around (k : Nat) : t.ancestor d (k * n) = some d := by
    induction k with
    | zero => rw [Nat.zero_mul]; rfl
    | succ k ih => rw [Nat.succ_mul, ancestor_add, ih]; exact h
  have far := ancestor_of_le (m := 6) (n := 6 * n) (by omega) (by rw [around]; rfl)
  rw [hshallow d] at far
  cases far

/-- With at most five classes above each class, no class outweighs its base: each share that the class
has, the base has at least, and it has the share of the class itself. -/
theorem standing_lt_of_shallow (hb : t.BasesKnown) (hshallow : ∀ c, t.ancestor c 6 = none) {c b : String}
    (hcb : t.baseOf c = some b) : t.standing c < t.standing b := by
  have hc : c ∈ t.keys := Table.mem_keys_iff.mpr (contains_of_baseOf hcb)
  have short {d x : String} {n : Nat} (h : t.ancestor d n = some x) : n ≤ 5 := by
    by_contra hn
    have := ancestor_of_le (m := 6) (n := n) (by omega) (by rw [h]; rfl)
    rw [hshallow d] at this
    cases this
  obtain ⟨m, hm⟩ := Nat.exists_eq_add_one_of_ne_zero (List.length_pos_of_mem hc).ne'
  let part (x d : String) (n : Nat) := if t.ancestor d (n + 1) = some x then t.share rounds d n else 0
  have up (d : String) (n : Nat) : part c d n ≤ part b d (n + 1) := by
    by_cases hd : t.ancestor d (n + 1) = some c
    · have hd' : t.ancestor d (n + 1 + 1) = some b := by rw [ancestor, hd]; exact hcb
      have := short hd'
      simp only [part, if_pos hd, if_pos hd']
      exact share_le_share_succ d (by omega)
    · simp only [part, if_neg hd]
      exact Nat.zero_le _
  have each (d : String) (hd : d ∈ t.keys) : ∑ n ∈ range t.keys.length, part c d n + part b d 0 ≤
      ∑ n ∈ range t.keys.length, part b d n := by
    have last : part c d m = 0 := if_neg fun h => by
      have := lt_length_of_ancestor hb (not_hasCycle_of_shallow hshallow) hd h
      omega
    rw [hm, sum_range_succ, sum_range_succ' (part b d), last, add_zero]
    exact Nat.add_le_add_right (sum_le_sum fun n _ => up d n) _
  have own : part b c 0 = rounds := by
    have above : t.ancestor c (0 + 1) = some b := hcb
    simp only [part, if_pos above]
    rfl
  calc t.standing c < ∑ d ∈ t.keys.toFinset, ∑ n ∈ range t.keys.length, part c d n + part b c 0 := by
        rw [own]
        exact Nat.lt_add_of_pos_right (by decide)
    _ ≤ ∑ d ∈ t.keys.toFinset, ∑ n ∈ range t.keys.length, part c d n + ∑ d ∈ t.keys.toFinset, part b d 0 :=
        Nat.add_le_add_left (single_le_sum (f := fun d => part b d 0) (fun d _ => Nat.zero_le _)
          (List.mem_toFinset.mpr hc)) _
    _ = ∑ d ∈ t.keys.toFinset, (∑ n ∈ range t.keys.length, part c d n + part b d 0) := sum_add_distrib.symm
    _ ≤ t.standing b := sum_le_sum fun d hd => each d (List.mem_toFinset.mp hd)

/-! ## What can be merged -/

theorem mergeParents_ok {cur : ClassTable}
    (h : ∀ c info b, (c, info) ∈ rest → info.setBase = some b → cur.contains b = true) :
    ∃ t', mergeParents cur rest = .ok t' := by
  induction rest generalizing cur with
  | nil => exact ⟨cur, rfl⟩
  | cons e rest ih =>
    obtain ⟨c, info⟩ := e
    rw [mergeParents_cons]
    cases hs : info.setBase with
    | none => exact ih fun d i b hd => h d i b (List.mem_cons_of_mem _ hd)
    | some b =>
      obtain ⟨parent, hp⟩ := Table.exists_of_contains (h c info b List.mem_cons_self hs)
      simp only [hp]
      refine ih fun d i b' hd hb' => ?_
      rw [contains_update, h d i b' (List.mem_cons_of_mem _ hd) hb', Bool.or_true]

theorem flatten_cases (hd : t.keys.Nodup) (hv : t.contains "Variant" = true) (hb : t.BasesKnown) :
    (parentsPrecede t [] (parentsFirst t.entries) = true ∧ ∃ t', t.flatten = .ok t') ∨
      (parentsPrecede t [] (parentsFirst t.entries) = false ∧ t.flatten = .error .parentAfterChild) := by
  have unfolded : t.flatten = if parentsPrecede t [] (parentsFirst t.entries) = true
      then mergeParents t (parentsFirst t.entries) else .error .parentAfterChild := by
    rw [flatten, hv]
    rfl
  cases ho : parentsPrecede t [] (parentsFirst t.entries) with
  | false => exact .inr ⟨rfl, by rw [unfolded, if_neg (by rw [ho]; decide)]⟩
  | true =>
    rw [unfolded, if_pos ho]
    refine .inl ⟨rfl, mergeParents_ok fun c info b hm hs => ?_⟩
    have hinfo : t.find? c = some info := (mem_parentsFirst_iff hd).mp hm
    exact hb c b (by rw [baseOf_of_find? hinfo]; exact hs)

theorem forall_baseOf {P : String → String → Prop}
    (h : ∀ e ∈ t.entries, ∀ b ∈ e.2.setBase, P e.1 b) {c b : String} (hcb : t.baseOf c = some b) : P c b := by
  obtain ⟨info, hinfo⟩ := Table.exists_of_contains (contains_of_baseOf hcb)
  exact h (c, info) (Table.mem_of_find? hinfo) b (by rw [← baseOf_of_find? hinfo]; exact hcb)

/-- **When a hierarchy cannot be put in order**: if a class is its own ancestor, or if a class outweighs
its base. The second cannot be if at most five classes are above each class. -/
theorem order_fails_iff_outweighs (hd : t.keys.Nodup) (hv : t.contains "Variant" = true)
    (hb : t.BasesKnown) :
    (t.flatten = .error .parentAfterChild ↔ t.HasCycle ∨ ∃ c b, t.baseOf c = some b ∧ t.Outweighs c b) ∧
    ((∀ c, t.ancestor c 6 = none) → ∃ t', t.flatten = .ok t') := by
  have checked : t.flatten = .error .parentAfterChild ↔ ¬ parentsPrecede t [] (parentsFirst t.entries) = true := by
    rcases flatten_cases hd hv hb with ⟨ho, t', h⟩ | ⟨ho, h⟩ <;> simp [ho, h]
  refine ⟨?_, fun hshallow => ?_⟩
  · rw [checked]
    by_cases hc : t.HasCycle
    · have wrong : ¬ parentsPrecede t [] (parentsFirst t.entries) = true := fun ho =>
        not_hasCycle_of_ranked (ranked_of_parentsPrecede hd hb ho) hc
      simp [hc, wrong]
    · rw [parentsPrecede_iff_outweighs hd hb hc]
      simp [hc]
  · have light (c b : String) (hcb : t.baseOf c = some b) : ¬ t.Outweighs c b := by
      have := standing_lt_of_shallow hb hshallow hcb
      unfold Outweighs
      omega
    have right := (parentsPrecede_iff_outweighs hd hb (not_hasCycle_of_shallow hshallow)).mpr light
    rcases flatten_cases hd hv hb with ⟨-, hok⟩ | ⟨ho, -⟩
    · exact hok
    · rw [ho] at right
      cases right

/-- Six classes in a row, the last of them with six classes derived from it, all listed after their
bases. -/
def wideHierarchy : ClassTable :=
  ⟨[("Variant", {}), ("Root", {}), ("Level1", { base := some "Root" }),
    ("Level2", { base := some "Level1" }), ("Level3", { base := some "Level2" }),
    ("Level4", { base := some "Level3" }), ("Level5", { base := some "Level4" }),
    ("LeafA", { base := some "Level5" }), ("LeafB", { base := some "Level5" }),
    ("LeafC", { base := some "Level5" }), ("LeafD", { base := some "Level5" }),
    ("LeafE", { base := some "Level5" }), ("LeafF", { base := some "Level5" })]⟩

theorem wideHierarchy_basesKnown : wideHierarchy.BasesKnown := fun _ _ =>
  forall_baseOf (P := fun _ b => wideHierarchy.contains b = true) (by decide)

theorem wideHierarchy_ranked : wideHierarchy.Ranked wideHierarchy.place := fun _ _ =>
  forall_baseOf (P := fun c b => wideHierarchy.place b < wideHierarchy.place c) (by decide)

theorem order_fails_iff_outweighs_wide : wideHierarchy.keys.Nodup ∧
    wideHierarchy.contains "Variant" = true ∧ wideHierarchy.BasesKnown ∧
      ∃ c b, wideHierarchy.baseOf c = some b ∧ wideHierarchy.Outweighs c b := by
  have hd : wideHierarchy.keys.Nodup := by decide
  have hv : wideHierarchy.contains "Variant" = true := by decide
  have hfail : wideHierarchy.flatten = .error .parentAfterChild := by cbv
  refine ⟨hd, hv, wideHierarchy_basesKnown, ?_⟩
  rcases (order_fails_iff_outweighs hd hv wideHierarchy_basesKnown).1.mp hfail with hcycle | hout
  · exact absurd hcycle (not_hasCycle_of_ranked wideHierarchy_ranked)
  · exact hout

/-- No class of the wide hierarchy is its own ancestor, and yet it cannot be put in order. -/
theorem wideHierarchy_not_ordered : wideHierarchy.keys.Nodup ∧ wideHierarchy.contains "Variant" = true ∧
    wideHierarchy.BasesKnown ∧ ¬ wideHierarchy.HasCycle ∧ wideHierarchy.flatten = .error .parentAfterChild :=
  ⟨by decide, by decide, wideHierarchy_basesKnown, not_hasCycle_of_ranked wideHierarchy_ranked, by cbv⟩

end GdScribe.ClassTable
