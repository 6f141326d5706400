import GdScribe.Proofs.Inheritance.Links
import Mathlib

/-!
# Merging is inheriting from all ancestors

A class table is merged in one pass over its classes, in an order that was checked before.

* `ClassTable.Merged`: the tables after a part of the pass: the classes of that part are complete, and
  the others are as they were.
* `ClassTable.Origin`: the most distant ancestor that has a name.

Principal results: `info_flatten` and `flatten_merges_ancestors`.
-/

namespace GdScribe

open List

/-! ## Tables -/

namespace Table

variable {α : Type}

variable {t : Table α}

variable {n : String}

theorem keys_merge (t u : Table α) : (t.merge u).keys = t.keys ++ u.keys.filter fun n => !t.contains n := by
  unfold keys merge
  rw [map_append, map_map, filter_map]
  rfl

theorem find_append (n : String) (es fs : List (String × α)) : find n (es ++ fs) = (find n es).or (find n fs) := by
  induction es with
  | nil => rfl
  | cons e es ih =>
    rw [cons_append, find, find, ih]
    split <;> rfl

theorem find_map (n : String) (f : String → α → α) (es : List (String × α)) :
    find n (es.map fun e => (e.1, f e.1 e.2)) = (find n es).map (f n) := by
  induction es with
  | nil => rfl
  | cons e es ih =>
    rw [map_cons, find, find, ih]
    split
    · rename_i he
      subst he
      rfl
    · rfl

theorem find_filter {p : String → Bool} (hp : p n = true) (es : List (String × α)) :
    find n (es.filter fun e => p e.1) = find n es := by
  induction es with
  | nil => rfl
  | cons e es ih =>
    rw [filter_cons, find]
    split
    · rw [find, ih]
    · rename_i hn
      rw [ih, if_neg fun he => hn (by rw [he, hp])]

theorem find?_merge (t u : Table α) (n : String) : (t.merge u).find? n = (u.find? n).or (t.find? n) := by
  have own : find n (t.entries.map fun e => (e.1, (u.find? e.1).getD e.2)) =
      (t.find? n).map fun v => (u.find? n).getD v := find_map n (fun k v => (u.find? k).getD v) t.entries
  unfold merge
  rw [find?, find_append, own]
  cases ht : t.find? n with
  | some v => cases u.find? n <;> rfl
  | none =>
    have new : (!t.contains n) = true := by rw [contains, ht]; rfl
    have rest : find n (u.entries.filter fun e => !t.contains e.1) = u.find? n :=
      find_filter (p := fun k => !t.contains k) new u.entries
    rw [rest]
    cases u.find? n <;> rfl

theorem contains_of_find? {v : α} (h : t.find? n = some v) : t.contains n = true := by
  rw [contains, h]
  rfl

end Table

/-- The tables of a class. -/
inductive Column where
  | members
  | methods
  | constants
  | enums
  deriving DecidableEq, Repr

/-- One of the tables of a class. -/
def ClassInfo.column (c : ClassInfo) : Column → Table Ty
  | .members => c.members
  | .methods => c.methods
  | .constants => c.constants
  | .enums => c.enums

namespace ClassTable

variable {t cur t' : ClassTable}

theorem column_inherit (info base : ClassInfo) (k : Column) :
    (ClassInfo.inherit info base).column k = (info.column k).merge (base.column k) := by
  cases k <;> rfl

variable {info : ClassInfo} {c b a : String}

theorem info_of_find? (h : t.find? c = some info) : t.info c = info := by
  rw [ClassTable.info, h]
  rfl

theorem baseOf_of_find? (h : t.find? c = some info) : t.baseOf c = info.setBase := by
  rw [baseOf, h]
  rfl

/-! ## The pass over the classes -/

/-- A class of `t`, with the entries that its base has in `cur`. -/
def derived (t cur : ClassTable) (c : String) : ClassInfo :=
  match t.baseOf c with
  | none => t.info c
  | some b => ClassInfo.inherit (t.info c) (cur.info b)

/-- The tables after the classes `done` have been merged. -/
structure Merged (t cur : ClassTable) (done : List String) : Prop where
  keys : cur.keys = t.keys
  closed : ∀ c ∈ done, ∀ b, t.baseOf c = some b → b ∈ done
  complete : ∀ c ∈ done, cur.info c = t.derived cur c
  waiting : ∀ c, c ∉ done → cur.info c = t.info c

theorem mergeParents_cons (cur : ClassTable) (name : String) (info : ClassInfo) (rest : List (String × ClassInfo)) :
    mergeParents cur ((name, info) :: rest) = match info.setBase with
      | none => mergeParents cur rest
      | some b => match cur.find? b with
        | none => .error (.unknownClass b)
        | some parent => mergeParents (cur.update name fun c => ClassInfo.inherit c parent) rest := by
  rw [mergeParents, ClassInfo.setBase]
  cases info.base with
  | none => rfl
  | some b =>
    by_cases hb : b.isEmpty = true
    · simp [Option.filter, hb]
    · rw [Bool.not_eq_true] at hb
      simp only [Option.filter, hb]
      rfl

variable {done : List String}

theorem Merged.skip (h : Merged t cur done) (hnew : c ∉ done)
    (hb : t.baseOf c = none) : Merged t cur (c :: done) where
  keys := h.keys
  closed d hd b hdb := by
    rcases mem_cons.mp hd with rfl | hd
    · rw [hb] at hdb
      cases hdb
    · exact .tail _ (h.closed d hd b hdb)
  complete d hd := by
    rcases mem_cons.mp hd with rfl | hd
    · rw [derived, hb]
      exact h.waiting d hnew
    · exact h.complete d hd
  waiting d hd := h.waiting d fun hm => hd (.tail _ hm)

theorem Merged.inherit (h : Merged t cur done) (hnew : c ∉ done)
    (hc : t.contains c = true) (hb : t.baseOf c = some b) (hdone : b ∈ done) :
    Merged t (cur.update c fun i => ClassInfo.inherit i (cur.info b)) (c :: done) := by
  have known : c ∈ Table.keys cur := h.keys ▸ Table.mem_keys_iff.mpr hc
  have keys : (cur.update c fun i => ClassInfo.inherit i (cur.info b)).keys = t.keys := by
    rw [update, Table.keys_put, addName, if_pos known, h.keys]
  have other {d : String} (hd : d ∈ done) :
      (cur.update c fun i => ClassInfo.inherit i (cur.info b)).info d = cur.info d := by
    rw [info_update, if_neg (by rintro rfl; exact hnew hd)]
  refine ⟨keys, fun d hd b' hdb => ?_, fun d hd => ?_, fun d hd => ?_⟩
  · rcases mem_cons.mp hd with rfl | hd
    · rw [hb] at hdb
      cases hdb
      exact .tail _ hdone
    · exact .tail _ (h.closed d hd b' hdb)
  · rcases mem_cons.mp hd with rfl | hd
    · rw [derived, hb, info_update, if_pos rfl, h.waiting d hnew]
      show _ = ClassInfo.inherit ..
      rw [other hdone]
    · rw [other hd, h.complete d hd]
      unfold derived
      cases hdb : t.baseOf d with
      | none => rfl
      | some b' =>
        show ClassInfo.inherit _ _ = ClassInfo.inherit ..
        rw [other (h.closed d hd b' hdb)]
  · rw [info_update, if_neg (by rintro rfl; exact hd mem_cons_self)]
    exact h.waiting d fun hm => hd (.tail _ hm)

/-- What is left of an order: the classes of `t` that are not `done` yet, in an order in which each
known base comes first. -/
structure Remaining (t : ClassTable) (done : List String) (rest : List (String × ClassInfo)) : Prop where
  own : ∀ c info, (c, info) ∈ rest → t.find? c = some info
  distinct : (rest.map (·.1)).Nodup
  new : ∀ c ∈ rest.map (·.1), c ∉ done
  order : parentsPrecede t done rest = true

/-- **The pass is right**: by induction on the classes that are left, each base is complete before the
classes derived from it. -/
theorem mergeParents_merged {rest : List (String × ClassInfo)}
    (hm : Merged t cur done) (hr : Remaining t done rest) (h : mergeParents cur rest = .ok t') :
    Merged t t' ((rest.map (·.1)).reverse ++ done) ∧
      ∀ c info b, (c, info) ∈ rest → info.setBase = some b → t.contains b = true := by
  induction rest generalizing cur done with
  | nil =>
    cases h
    exact ⟨hm, nofun⟩
  | cons e rest ih =>
    obtain ⟨c, info⟩ := e
    have found : t.find? c = some info := hr.own c info mem_cons_self
    have hnew : c ∉ done := hr.new c mem_cons_self
    have hbase : t.baseOf c = info.setBase := baseOf_of_find? found
    obtain ⟨hfirst, hdistinct⟩ := nodup_cons.mp hr.distinct
    have left : Remaining t (c :: done) rest := by
      refine ⟨fun d i hd => hr.own d i (.tail _ hd), hdistinct, fun d hd => ?_, ?_⟩
      · rintro (_ | _)
        · exact hfirst hd
        · exact hr.new d (.tail _ hd) ‹_›
      · have order := hr.order
        rw [parentsPrecede, Bool.and_eq_true] at order
        exact order.2
    have names : ((((c, info) :: rest).map (·.1)).reverse ++ done) = (rest.map (·.1)).reverse ++ c :: done := by
      simp
    rw [mergeParents_cons] at h
    cases hs : info.setBase with
    | none =>
      rw [hs] at h
      obtain ⟨hall, hknown⟩ := ih (hm.skip hnew (hbase.trans hs)) left h
      refine ⟨names ▸ hall, fun d i b hd hb => ?_⟩
      rcases mem_cons.mp hd with he | hd
      · cases he
        rw [hs] at hb
        cases hb
      · exact hknown d i b hd hb
    | some b =>
      rw [hs] at h
      cases hp : cur.find? b with
      | none => simp only [hp] at h; cases h
      | some parent =>
        simp only [hp] at h
        have known : t.contains b = true := by
          rw [← Table.mem_keys_iff, ← hm.keys, Table.mem_keys_iff]
          exact Table.contains_of_find? hp
        have before : b ∈ done := by
          have checked := (parentsPrecede_iff done ((c, info) :: rest)).mp hr.order [] c info rest b rfl hs known
          simpa using checked
        rw [← info_of_find? hp] at h
        obtain ⟨hall, hknown⟩ := ih (hm.inherit hnew (Table.contains_of_find? found) (hbase.trans hs) before) left h
        refine ⟨names ▸ hall, fun d i b' hd hb => ?_⟩
        rcases mem_cons.mp hd with he | hd
        · cases he
          rw [hs] at hb
          cases hb
          exact known
        · exact hknown d i b' hd hb

/-! ## The merged table -/

theorem mem_parentsFirst_iff (hd : t.keys.Nodup) : (c, info) ∈ parentsFirst t.entries ↔ t.find? c = some info := by
  rw [(perm_parentsFirst t.entries).mem_iff]
  exact ⟨Table.find?_of_mem hd, Table.mem_of_find?⟩

theorem nodup_parentsFirst (hd : t.keys.Nodup) : ((parentsFirst t.entries).map (·.1)).Nodup :=
  ((perm_parentsFirst t.entries).map Prod.fst).nodup_iff.mpr hd

/-- In a list without repetitions the order of two members can be read off their places. -/
theorem pair_sublist_iff {l : List String} (hl : l.Nodup) (ha : a ∈ l) (hb : b ∈ l) :
    [a, b].Sublist l ↔ l.idxOf a < l.idxOf b := by
  rw [cons_sublist_iff]
  constructor
  · rintro ⟨before, behind, rfl, first, second⟩
    have later : b ∉ before := fun h => (nodup_append.mp hl).2.2 b h b (singleton_sublist.mp second) rfl
    rw [idxOf_append_of_mem first, idxOf_append_of_notMem later]
    exact Nat.lt_add_right _ (idxOf_lt_length_of_mem first)
  · intro less
    obtain ⟨before, behind, rfl⟩ := append_of_mem ha
    have fresh : a ∉ before := fun h => (nodup_append.mp hl).2.2 a h a mem_cons_self rfl
    refine ⟨before ++ [a], behind, by simp, by simp, singleton_sublist.mpr ?_⟩
    rw [idxOf_append_of_notMem fresh, idxOf_cons_self] at less
    rcases mem_append.mp hb with early | late
    · rw [idxOf_append_of_mem early] at less
      exact absurd (idxOf_lt_length_of_mem early) (Nat.not_lt_of_gt less)
    · refine (mem_cons.mp late).resolve_left ?_
      rintro rfl
      simp [idxOf_append_of_notMem fresh] at less

/-- In an order that was checked the base of a class stands before it. -/
theorem sublist_of_parentsPrecede (hd : t.keys.Nodup) (hb : t.BasesKnown)
    (h : parentsPrecede t [] (parentsFirst t.entries) = true) (hcb : t.baseOf c = some b) :
    [b, c].Sublist ((parentsFirst t.entries).map (·.1)) := by
  obtain ⟨info, hinfo⟩ := Table.exists_of_contains (contains_of_baseOf hcb)
  obtain ⟨done, rest, hsplit⟩ := append_of_mem ((mem_parentsFirst_iff hd).mpr hinfo)
  have before : b ∈ done.map (·.1) := by
    have checked := (parentsPrecede_iff [] _).mp h done c info rest b hsplit
      (by rw [← baseOf_of_find? hinfo]; exact hcb) (hb c b hcb)
    simpa using checked
  rw [hsplit, map_append]
  exact (singleton_sublist.mpr before).append (singleton_sublist.mpr mem_cons_self)

theorem ranked_of_parentsPrecede (hd : t.keys.Nodup) (hb : t.BasesKnown)
    (h : parentsPrecede t [] (parentsFirst t.entries) = true) :
    t.Ranked fun c => ((parentsFirst t.entries).map (·.1)).idxOf c := by
  intro c b hcb
  have sub := sublist_of_parentsPrecede hd hb h hcb
  exact (pair_sublist_iff (nodup_parentsFirst hd) (sub.subset (by simp)) (sub.subset (by simp))).mp sub

/-- **The merged table**: every base that is set is there, a base ranks before the classes derived from
it, and each class has its own entries and those that its base has in the merged table. -/
theorem info_flatten (hd : t.keys.Nodup) (h : t.flatten = .ok t') :
    t.BasesKnown ∧ (∃ rank, t.Ranked rank) ∧ t'.keys = t.keys ∧ ∀ c ∈ t.keys, t'.info c = t.derived t' c := by
  unfold flatten at h
  split at h
  · cases h
  dsimp only at h
  split at h
  · rename_i horder
    have start : Merged t t [] := ⟨rfl, nofun, nofun, fun _ _ => rfl⟩
    have all : Remaining t [] (parentsFirst t.entries) :=
      { own := fun c info hm => (mem_parentsFirst_iff hd).mp hm
        distinct := nodup_parentsFirst hd
        new := fun _ _ => not_mem_nil
        order := horder }
    obtain ⟨hm, hknown⟩ := mergeParents_merged start all h
    have known : t.BasesKnown := by
      intro c b hcb
      obtain ⟨info, hinfo⟩ := Table.exists_of_contains (contains_of_baseOf hcb)
      exact hknown c info b ((mem_parentsFirst_iff hd).mpr hinfo) (by rw [← baseOf_of_find? hinfo]; exact hcb)
    refine ⟨known, ⟨_, ranked_of_parentsPrecede hd known horder⟩, hm.keys, fun c hc => hm.complete c ?_⟩
    rw [append_nil, mem_reverse, ((perm_parentsFirst t.entries).map Prod.fst).mem_iff]
    exact hc
  · cases h

/-! ## Where an entry comes from -/

/-- A name comes from the class `n` links above a class: there it has the type `type`, and no class
further up has it. -/
structure Origin (t : ClassTable) (k : Column) (c name : String) (n : Nat) (type : Ty) : Prop where
  has : ∃ a, t.ancestor c n = some a ∧ ((t.info a).column k).find? name = some type
  last : ∀ m a, n < m → t.ancestor c m = some a → ((t.info a).column k).contains name = false

section Lookup

variable {k : Column} {name : String}

variable {c : String} {rank : String → Nat}

theorem find?_derived_of_base (hb : t.baseOf c = some b) : ((t.derived t' c).column k).find? name =
      (((t'.info b).column k).find? name).or (((t.info c).column k).find? name) := by
  rw [derived, hb]
  rw [column_inherit, Table.find?_merge]

theorem derived_of_no_base (hb : t.baseOf c = none) : t.derived t' c = t.info c := by
  rw [derived, hb]

variable (hb : t.BasesKnown) (hinfo : ∀ c ∈ t.keys, t'.info c = t.derived t' c)

include hb hinfo

theorem contains_of_ancestor (hc : c ∈ t.keys) {n : Nat} (ha : t.ancestor c n = some a)
    (h : ((t.info a).column k).contains name = true) : ((t'.info c).column k).contains name = true := by
  induction n generalizing c with
  | zero =>
    rw [← Option.some.inj ha] at h
    rw [hinfo c hc]
    cases hcb : t.baseOf c with
    | none => rw [derived_of_no_base hcb]; exact h
    | some b =>
      obtain ⟨v, hv⟩ := Table.exists_of_contains h
      rw [Table.contains, find?_derived_of_base hcb, hv]
      cases ((t'.info b).column k).find? name <;> rfl
  | succ n ih =>
    cases hcb : t.baseOf c with
    | none =>
      rw [Nat.add_comm, ancestor_add, ancestor_one, hcb] at ha
      cases ha
    | some b =>
      rw [ancestor_succ_of_base hcb] at ha
      obtain ⟨v, hv⟩ := Table.exists_of_contains (ih (Table.mem_keys_iff.mpr (hb c b hcb)) ha)
      rw [hinfo c hc, Table.contains, find?_derived_of_base hcb, hv]
      rfl

/-- What a class has in the merged table comes from the most distant ancestor that has it. The
induction goes up the links. -/
theorem origin_of_find? (hr : t.Ranked rank) (hc : c ∈ t.keys)
    {type : Ty} (h : ((t'.info c).column k).find? name = some type) : ∃ n, Origin t k c name n type := by
  induction hn : rank c using Nat.strong_induction_on generalizing c with
  | _ r ih =>
    rw [hinfo c hc] at h
    cases hcb : t.baseOf c with
    | none =>
      rw [derived_of_no_base hcb] at h
      refine ⟨0, ⟨c, rfl, h⟩, fun m a hm ha => ?_⟩
      obtain ⟨m, rfl⟩ := Nat.exists_eq_add_of_lt hm
      rw [Nat.add_comm, ancestor_add, ancestor_one, hcb] at ha
      cases ha
    | some b =>
      have hmem : b ∈ t.keys := Table.mem_keys_iff.mpr (hb c b hcb)
      rw [find?_derived_of_base hcb] at h
      cases hf : ((t'.info b).column k).find? name with
      | some type' =>
        rw [hf] at h
        cases h
        obtain ⟨n, ⟨a, ha, hv⟩, hlast⟩ := ih (rank b) (hn ▸ hr c b hcb) hmem hf rfl
        refine ⟨n + 1, ⟨a, by rw [ancestor_succ_of_base hcb]; exact ha, hv⟩, fun m a' hm ha' => ?_⟩
        obtain ⟨m, rfl⟩ : ∃ i, m = i + 1 := ⟨m - 1, by omega⟩
        rw [ancestor_succ_of_base hcb] at ha'
        exact hlast m a' (Nat.lt_of_succ_lt_succ hm) ha'
      | none =>
        rw [hf] at h
        refine ⟨0, ⟨c, rfl, h⟩, fun m a hm ha => ?_⟩
        obtain ⟨m, rfl⟩ : ∃ i, m = i + 1 := ⟨m - 1, by omega⟩
        rw [ancestor_succ_of_base hcb] at ha
        by_contra hne
        have inherited := contains_of_ancestor hb hinfo hmem ha (by simpa using hne)
        rw [Table.contains, hf] at inherited
        cases inherited

/-- The type that the most distant ancestor gives to a name is the merged one. -/
theorem find?_of_origin (hr : t.Ranked rank) (hc : c ∈ t.keys) {n : Nat}
    {type : Ty} (h : Origin t k c name n type) : ((t'.info c).column k).find? name = some type := by
  obtain ⟨⟨a, ha, hv⟩, hlast⟩ := h
  obtain ⟨v, hfound⟩ := Table.exists_of_contains (contains_of_ancestor hb hinfo hc ha (Table.contains_of_find? hv))
  obtain ⟨m, ⟨a', ha', hv'⟩, hlast'⟩ := origin_of_find? hb hinfo hr hc hfound
  -- two ancestors, each of them the most distant one, are the same
  have same : m = n := by
    rcases lt_trichotomy m n with hlt | heq | hlt
    · have := hlast' n a hlt ha
      rw [Table.contains, hv] at this
      cases this
    · exact heq
    · have := hlast m a' hlt ha'
      rw [Table.contains, hv'] at this
      cases this
  subst same
  rw [ha] at ha'
  cases ha'
  rw [hv] at hv'
  rw [hfound, hv']

end Lookup

/-- **Merging is inheriting from all ancestors.** If a class table can be merged, every base that is set
is a class of the table and no class is its own ancestor. The merged table has the same classes with
the same bases. In each table of a class its own names come first, then those that only the base has
in the merged table; and each name has the type that the most distant ancestor gives it. -/
theorem flatten_merges_ancestors (hd : t.keys.Nodup) (h : t.flatten = .ok t') :
    t.BasesKnown ∧ ¬ t.HasCycle ∧ t'.keys = t.keys ∧ ∀ c ∈ t.keys, (t'.info c).base = (t.info c).base ∧ ∀ k : Column,
        ((t'.info c).column k).keys = ((t.info c).column k).keys ++ (match t.baseOf c with
            | none => []
            | some b => ((t'.info b).column k).keys.filter (· ∉ ((t.info c).column k).keys)) ∧
        ∀ name type, ((t'.info c).column k).find? name = some type ↔ ∃ n, Origin t k c name n type := by
  obtain ⟨hb, ⟨rank, hr⟩, hkeys, hinfo⟩ := info_flatten hd h
  refine ⟨hb, not_hasCycle_of_ranked hr, hkeys, fun c hc => ⟨?_, fun k => ⟨?_, fun name type => ?_⟩⟩⟩
  · rw [hinfo c hc, derived]
    cases t.baseOf c <;> rfl
  · rw [hinfo c hc, derived]
    cases t.baseOf c with
    | none => exact (append_nil _).symm
    | some b =>
      have absent (n : String) : (!((t.info c).column k).contains n) = decide (n ∉ ((t.info c).column k).keys) := by
        simp [Table.mem_keys_iff]
      show ((ClassInfo.inherit _ _).column k).keys = _
      rw [column_inherit, Table.keys_merge]
      simp only [absent]
  · exact ⟨origin_of_find? hb hinfo hr hc, fun ⟨n, ho⟩ => find?_of_origin hb hinfo hr hc ho⟩

/-- A button is a control and a control is a node; nodes and buttons both have a name. -/
def widgets : ClassTable :=
  ⟨[("Button", { base := some "Control", members := ⟨[("text", some "String"), ("name", some "int")]⟩ }),
    ("Control", { base := some "Node", members := ⟨[("size", some "Vector2")]⟩ }),
    ("Node", { members := ⟨[("name", some "StringName"), ("owner", some "Node")]⟩ }),
    ("Variant", {})]⟩

/-- The widgets with what they inherit. -/
def mergedWidgets : ClassTable :=
  ⟨[("Button", { base := some "Control", members := ⟨[("text", some "String"), ("name", some "StringName"),
      ("size", some "Vector2"), ("owner", some "Node")]⟩ }),
    ("Control", { base := some "Node", members := ⟨[("size", some "Vector2"), ("name", some "StringName"),
      ("owner", some "Node")]⟩ }),
    ("Node", { members := ⟨[("name", some "StringName"), ("owner", some "Node")]⟩ }),
    ("Variant", {})]⟩

theorem flatten_merges_ancestors_widgets : widgets.keys.Nodup ∧ widgets.flatten = .ok mergedWidgets ∧
    ¬ widgets.HasCycle ∧ ∃ n, Origin widgets .members "Button" "name" n (some "StringName") := by
  have hd : widgets.keys.Nodup := by decide
  have h : widgets.flatten = .ok mergedWidgets := by cbv
  obtain ⟨-, hcycle, -, hall⟩ := flatten_merges_ancestors hd h
  obtain ⟨-, hmembers⟩ := (hall "Button" (by decide)).2 .members
  exact ⟨hd, h, hcycle, (hmembers "name" (some "StringName")).mp (by decide)⟩

end ClassTable

end GdScribe
