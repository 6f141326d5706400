import GdScribe.ClassTable.Docs
import GdScribe.Proofs.Table
import Mathlib.Data.List.Induction
import Mathlib.Data.List.Nodup
import Mathlib.Data.List.Pairwise
import Mathlib.Logic.Function.Basic

/-!
# The order of class documents

Documents are read one after another into one class table, and a constant can put an enumerator into the
record of another class, before or after that class has its own document. Seen as maps, the tables do not
tell in which order this happened.

* `ClassDoc.writes`: what a document puts down, cell by cell; it does not depend on the table.

Principal results: `ClassDoc.cells_read` and `ClassTable.ofDocs_perm`.
-/

namespace GdScribe

open List

/-! ## Cells -/

/-- A place in the record of a class. -/
inductive ClassInfo.Slot where
  | base
  | member (name : String)
  | method (name : String)
  | constant (name : String)
  | enumerator (name : String)
  deriving DecidableEq

namespace ClassInfo

/-- What stands in a slot, if anything does. -/
def held (i : ClassInfo) : Slot → Option Ty
  | .base => some i.base
  | .member name => i.members.find? name
  | .method name => i.methods.find? name
  | .constant name => i.constants.find? name
  | .enumerator name => i.enums.find? name

/-- The record with another value in a slot. -/
def set (i : ClassInfo) : Slot × Ty → ClassInfo
  | (.base, t) => { i with base := t }
  | (.member name, t) => { i with members := i.members.put name t }
  | (.method name, t) => { i with methods := i.methods.put name t }
  | (.constant name, t) => { i with constants := i.constants.put name t }
  | (.enumerator name, t) => { i with enums := i.enums.put name t }

theorem held_set (i : ClassInfo) (w : Slot × Ty) (s : Slot) :
    (i.set w).held s = if w.1 = s then some w.2 else i.held s := by
  obtain ⟨_ | _ | _ | _ | _, t⟩ := w <;> cases s <;> simp [set, held, Table.find?_put]

/-- Types of methods, as values of slots. -/
def methodSlots (es : List (String × Ty)) : List (Slot × Ty) := es.map fun e => (.method e.1, e.2)

/-- Types of members, as values of slots. -/
def memberSlots (es : List (String × Ty)) : List (Slot × Ty) := es.map fun e => (.member e.1, e.2)

theorem foldl_set_methodSlots (i : ClassInfo) (es : List (String × Ty)) :
    (methodSlots es).foldl set i = { i with methods := ClassDoc.putAll i.methods es } := by
  induction es generalizing i with
  | nil => rfl
  | cons e es ih => exact ih _

theorem foldl_set_memberSlots (i : ClassInfo) (es : List (String × Ty)) :
    (memberSlots es).foldl set i = { i with members := ClassDoc.putAll i.members es } := by
  induction es generalizing i with
  | nil => rfl
  | cons e es ih => exact ih _

end ClassInfo

namespace ClassTable

/-- A place in a class table: a class itself, or a slot of its record. -/
inductive Cell where
  | known (c : String)
  | slot (c : String) (s : ClassInfo.Slot)
  deriving DecidableEq

/-- What stands in the cells of a table, if anything does. -/
abbrev Cells := Cell → Option Ty

/-- What stands in each cell of a class table. -/
def cells (t : ClassTable) : Cells
  | .known c => if t.contains c then some none else none
  | .slot c s => (t.info c).held s

/-- A value that is put into a cell. -/
abbrev Write := Cell × Ty

/-- The cells after one of them was written. -/
def write (s : Cells) (w : Write) : Cells := Function.update s w.1 (some w.2)

/-- The writes by which values get into the record of a class. -/
def writesAt (c : String) (ws : List (ClassInfo.Slot × Ty)) : List Write :=
  (.known c, none) :: ws.map fun w => (.slot c w.1, w.2)

theorem mem_writesAt {c : String} {ws : List (ClassInfo.Slot × Ty)} {w : Write} :
    w ∈ writesAt c ws ↔ w = (.known c, none) ∨ ∃ x ∈ ws, w = (.slot c x.1, x.2) := by
  simp [writesAt, eq_comm]

/-- **Changing a record is writing its cells.** -/
theorem cells_update (t : ClassTable) (c : String) (ws : List (ClassInfo.Slot × Ty)) :
    (t.update c (ws.foldl ClassInfo.set)).cells = (writesAt c ws).foldl write t.cells := by
  induction ws using reverseRecOn with
  | nil =>
    funext cell
    cases cell with
    | known d =>
      by_cases hd : c = d
      · simp [writesAt, write, cells, contains_update, hd]
      · simp [writesAt, write, cells, contains_update, hd, Ne.symm hd]
    | slot d s => simp [writesAt, write, cells, info_update]
  | append_singleton ws w ih =>
    have last : (writesAt c (ws ++ [w])).foldl write t.cells =
        write ((writesAt c ws).foldl write t.cells) (.slot c w.1, w.2) := by simp [writesAt]
    rw [last, ← ih]
    funext cell
    cases cell with
    | known d => simp [write, cells, contains_update]
    | slot d s =>
      by_cases hd : c = d
      · simp [write, cells, Function.update_apply, info_update, ClassInfo.held_set, hd, eq_comm]
      · simp [write, cells, info_update, hd, Ne.symm hd]

/-- Writes that do not contradict each other. -/
def Compatible (vs ws : List Write) : Prop := ∀ v ∈ vs, ∀ w ∈ ws, v.1 = w.1 → v.2 = w.2

theorem write_comm {v w : Write} (h : v.1 = w.1 → v.2 = w.2) (s : Cells) :
    write (write s v) w = write (write s w) v := by
  unfold write
  by_cases same : v.1 = w.1
  · rw [same, h same]
  · exact Function.update_comm same _ _ s

/-- Lists of writes that do not contradict each other can change places. -/
theorem foldl_write_comm {vs ws : List Write} (h : Compatible vs ws) (s : Cells) :
    ws.foldl write (vs.foldl write s) = vs.foldl write (ws.foldl write s) := by
  induction vs generalizing s with
  | nil => rfl
  | cons v vs ih =>
    have one (us : List Write) (hus : us ⊆ ws) (s : Cells) :
        us.foldl write (write s v) = write (us.foldl write s) v := by
      induction us generalizing s with
      | nil => rfl
      | cons u us ihu =>
        have hu : v.1 = u.1 → v.2 = u.2 := h v mem_cons_self u (hus mem_cons_self)
        rw [foldl_cons, write_comm hu, ihu (subset_of_cons_subset hus)]
        rfl
    rw [foldl_cons, ih fun v hv => h v (.tail _ hv), one ws (Subset.refl ws)]
    rfl

/-- Class tables with the same classes, bases and entries, in whatever order they were put in. -/
structure SameEntries (t u : ClassTable) : Prop where
  classes : ∀ c, t.contains c = u.contains c
  base : ∀ c, (t.info c).base = (u.info c).base
  members : ∀ c, (t.info c).members.Alike (u.info c).members
  methods : ∀ c, (t.info c).methods.Alike (u.info c).methods
  constants : ∀ c, (t.info c).constants.Alike (u.info c).constants
  enums : ∀ c, (t.info c).enums.Alike (u.info c).enums

theorem sameEntries_of_cells {t u : ClassTable} (h : t.cells = u.cells) : t.SameEntries u where
  classes c := by
    have known : t.cells (.known c) = u.cells (.known c) := congrFun h _
    unfold cells at known
    cases ht : t.contains c <;> cases hu : u.contains c <;> simp_all
  base c := Option.some.inj (congrFun h (.slot c .base))
  members c name := congrFun h (.slot c (.member name))
  methods c name := congrFun h (.slot c (.method name))
  constants c name := congrFun h (.slot c (.constant name))
  enums c name := congrFun h (.slot c (.enumerator name))

end ClassTable

/-! ## Documents -/

open ClassTable

variable {docs : List ClassDoc}

namespace ClassDoc

/-- The class that owns the enumeration of a constant and the enumeration's own name, if the constant is
an enumerator. -/
def enumerationOf (className : String) (c : ConstantDoc) : Option (String × String) :=
  match c.enumeration with
  | none => none
  | some e => if e.isEmpty then none else (enumOwner className e).toOption

/-- What a constant puts down: itself, and itself as an enumerator. -/
def constantWrites (className : String) (c : ConstantDoc) : List Write :=
  writesAt className [(.constant c.name, c.value.map constantType)] ++ match enumerationOf className c with
    | none => []
    | some (owner, name) => writesAt owner [(.enumerator c.name, some (enumType name))]

/-- What a document puts down. -/
def writes (d : ClassDoc) : List Write :=
  if nativeTypes.contains d.name then []
  else
    writesAt d.name ((.base, d.inherits) :: ClassInfo.methodSlots d.methods ++ ClassInfo.memberSlots d.members) ++
    d.constants.flatMap (constantWrites d.name) ++
    writesAt d.name (ClassInfo.memberSlots (d.signals.map fun s => (s, some (signalType s))))

/-- The enumerators that a document assigns: the class that owns each, and its name. -/
def enumerators (d : ClassDoc) : List (String × String) :=
  if nativeTypes.contains d.name then []
  else d.constants.filterMap fun c => (enumerationOf d.name c).map fun o => (o.1, c.name)

variable {className : String} {t t' : ClassTable}

theorem cells_addConstant {c : ConstantDoc} (h : addConstant className t c = .ok t') :
    t'.cells = (constantWrites className c).foldl write t.cells := by
  unfold addConstant at h
  cases hv : c.value with
  | none => rw [hv] at h; cases h
  | some value =>
    have first := cells_update t className [(.constant c.name, some (constantType value))]
    unfold constantWrites enumerationOf
    rw [foldl_append, hv, Option.map_some, ← first]
    rw [hv] at h
    cases he : c.enumeration with
    | none =>
      rw [he] at h
      cases h
      rfl
    | some e =>
      rw [he] at h
      by_cases empty : e.isEmpty = true
      · simp only [empty] at h ⊢
        cases h
        rfl
      · simp only [empty] at h ⊢
        cases ho : enumOwner className e with
        | error f => rw [ho] at h; cases h
        | ok o =>
          rw [ho] at h
          cases h
          exact cells_update _ o.1 [(.enumerator c.name, some (enumType o.2))]

/-- Where each step writes its cells, all of them together write theirs in a row. -/
theorem cells_foldlM {α : Type} {f : ClassTable → α → Except Fault ClassTable} {cells : α → List Write}
    {as : List α} (h : as.foldlM f t = .ok t')
    (step : ∀ t u a, f t a = .ok u → u.cells = (cells a).foldl write t.cells) :
    t'.cells = as.foldl (fun c a => (cells a).foldl write c) t.cells := by
  induction as generalizing t with
  | nil =>
    cases h
    rfl
  | cons a as ih =>
    rw [foldlM_cons] at h
    cases ha : f t a with
    | error e => rw [ha] at h; cases h
    | ok u =>
      rw [ha] at h
      rw [ih h, step t u a ha, foldl_cons]

variable {d : ClassDoc}

/-- **Reading a document is writing its cells.** -/
theorem cells_read (h : read t d = .ok t') : t'.cells = d.writes.foldl write t.cells := by
  unfold read at h
  unfold writes
  split at h
  · rw [if_pos ‹_›]
    cases h
    rfl
  · rw [if_neg ‹_›]
    have head := cells_update t d.name
      ((.base, d.inherits) :: ClassInfo.methodSlots d.methods ++ ClassInfo.memberSlots d.members)
    simp only [foldl_append, foldl_cons, ClassInfo.foldl_set_methodSlots,
      ClassInfo.foldl_set_memberSlots, ClassInfo.set] at head
    rw [foldl_append, foldl_append, ← head]
    dsimp only at h
    cases hc : d.constants.foldlM (addConstant d.name) _ with
    | error f => rw [hc] at h; cases h
    | ok u =>
      rw [hc] at h
      cases h
      have signals := cells_update u d.name (ClassInfo.memberSlots (d.signals.map fun s => (s, some (signalType s))))
      simp only [ClassInfo.foldl_set_memberSlots] at signals
      rw [foldl_flatMap, ← cells_foldlM hc fun _ _ _ => cells_addConstant, ← signals]

/-- Where a document writes: to the record of its own class, or an enumerator that it assigns. Of any class
it can say that there is one. -/
theorem mem_writes {w : Write} (h : w ∈ d.writes) :
    (∃ c, w = (.known c, none)) ∨ (∃ s, w.1 = .slot d.name s ∧ ∀ name, s ≠ .enumerator name) ∨
      ∃ e ∈ d.enumerators, w.1 = .slot e.1 (.enumerator e.2) := by
  unfold writes at h
  by_cases native : nativeTypes.contains d.name = true
  · rw [if_pos native] at h
    cases h
  rw [if_neg native, mem_append, mem_append, mem_writesAt, mem_writesAt, mem_flatMap] at h
  rcases h with ((rfl | ⟨x, hx, rfl⟩) | ⟨c, hc, h⟩) | rfl | ⟨x, hx, rfl⟩
  · exact .inl ⟨_, rfl⟩
  · refine .inr (.inl ⟨x.1, rfl, ?_⟩)
    rw [mem_append, mem_cons, ClassInfo.methodSlots, ClassInfo.memberSlots, mem_map, mem_map] at hx
    rcases hx with (rfl | ⟨e, -, rfl⟩) | ⟨e, -, rfl⟩ <;> exact nofun
  · rcases mem_append.mp h with h | h
    · rcases mem_writesAt.mp h with rfl | ⟨x, hx, rfl⟩
      · exact .inl ⟨_, rfl⟩
      · rw [mem_singleton.mp hx]
        exact .inr (.inl ⟨_, rfl, nofun⟩)
    · cases ho : enumerationOf d.name c with
      | none =>
        rw [ho] at h
        cases h
      | some o =>
        rw [ho] at h
        rcases mem_writesAt.mp h with rfl | ⟨x, hx, rfl⟩
        · exact .inl ⟨_, rfl⟩
        · rw [mem_singleton.mp hx]
          refine .inr (.inr ⟨(o.1, c.name), ?_, rfl⟩)
          rw [enumerators, if_neg native]
          exact mem_filterMap.mpr ⟨c, hc, by rw [ho]; rfl⟩
  · exact .inl ⟨_, rfl⟩
  · obtain ⟨e, -, rfl⟩ := mem_map.mp hx
    exact .inr (.inl ⟨_, rfl, nofun⟩)

/-- Documents of different classes that assign different enumerators do not contradict each other. -/
theorem writes_compatible {e : ClassDoc} (names : d.name ≠ e.name)
    (apart : ∀ a ∈ d.enumerators, a ∉ e.enumerators) : Compatible d.writes e.writes := by
  intro v hv w hw same
  rcases mem_writes hv with ⟨c, rfl⟩ | ⟨s, hs, plain⟩ | ⟨a, ha, hs⟩ <;>
    rcases mem_writes hw with ⟨c', rfl⟩ | ⟨s', hs', plain'⟩ | ⟨a', ha', hs'⟩
  · rfl
  · exact absurd (same.trans hs') nofun
  · exact absurd (same.trans hs') nofun
  · exact absurd (hs.symm.trans same) nofun
  · exact absurd (Cell.slot.inj (hs.symm.trans (same.trans hs'))).1 names
  · exact absurd (Cell.slot.inj (hs.symm.trans (same.trans hs'))).2 (plain _)
  · exact absurd (hs.symm.trans same) nofun
  · exact absurd (Cell.slot.inj (hs.symm.trans (same.trans hs'))).2.symm (plain' _)
  · obtain ⟨owner, name⟩ := Cell.slot.inj (hs.symm.trans (same.trans hs'))
    have : a = a' := Prod.ext owner (ClassInfo.Slot.enumerator.inj name)
    exact absurd (this ▸ ha') (apart a ha)

end ClassDoc

theorem ClassTable.cells_ofDocs {t : ClassTable} (h : ofDocs docs = .ok t) :
    t.cells = (writesAt globalScope (ClassInfo.methodSlots ClassDoc.extraFunctions)).foldl write
      (docs.foldl (fun s d => d.writes.foldl write s) (cells {})) := by
  unfold ofDocs at h
  cases hd : docs.foldlM ClassDoc.read {} with
  | error f =>
    rw [hd] at h
    cases h
  | ok u =>
    rw [hd] at h
    have extra := cells_update u globalScope (ClassInfo.methodSlots ClassDoc.extraFunctions)
    simp only [ClassInfo.foldl_set_methodSlots] at extra
    rw [← ClassDoc.cells_foldlM hd fun _ _ _ => ClassDoc.cells_read, ← extra]
    by_cases scope : u.contains globalScope = true <;> simp only [bind, Except.bind, scope] at h <;> cases h
    rfl

/-- **The order of class documents does not matter.** Documents of different classes, no two of which assign
the same enumerator to the same class, give tables with the same classes, bases and entries in whatever
order they are read. -/
theorem ClassTable.ofDocs_perm {docs docs' : List ClassDoc} {t t' : ClassTable} (perm : docs.Perm docs')
    (names : (docs.map (·.name)).Nodup)
    (apart : docs.Pairwise fun d e => ∀ a ∈ d.enumerators, a ∉ e.enumerators)
    (h : ofDocs docs = .ok t) (h' : ofDocs docs' = .ok t') : t.SameEntries t' := by
  apply sameEntries_of_cells
  rw [cells_ofDocs h, cells_ofDocs h']
  congr 1
  refine perm.foldl_eq' (fun d hd e he s => ?_) _
  by_cases same : d = e
  · rw [same]
  · have : Std.Symm fun d e : ClassDoc => ∀ a ∈ d.enumerators, a ∉ e.enumerators := ⟨fun _ _ h a ha ha' => h a ha' ha⟩
    have other : d.name ≠ e.name := fun hn => same (inj_on_of_nodup_map names hd he hn)
    exact foldl_write_comm (ClassDoc.writes_compatible other (apart.forall hd he same)) s

/-- A document that adds to the enumeration of another class, before and after that class is read. -/
theorem ClassTable.ofDocs_perm_keys :
    let keyA : ConstantDoc := { name := "KEY_A", value := some "65", enumeration := some "@GlobalScope.Key" }
    let keyB : ConstantDoc := { name := "KEY_B", value := some "66", enumeration := some "Key" }
    let input : ClassDoc := { name := "Input", inherits := some "Object", constants := [keyA] }
    let scope : ClassDoc := { name := "@GlobalScope", constants := [keyB] }
    ∃ t t', ofDocs [input, scope] = .ok t ∧ ofDocs [scope, input] = .ok t' ∧ t ≠ t' ∧ t.SameEntries t' := by
  intro keyA keyB input scope
  let inputInfo : ClassInfo := { base := some "Object", constants := ⟨[("KEY_A", some "int")]⟩ }
  let scopeInfo (enums : List (String × Ty)) : ClassInfo :=
    { methods := ⟨ClassDoc.extraFunctions⟩, constants := ⟨[("KEY_B", some "int")]⟩, enums := ⟨enums⟩ }
  let a : String × Ty := ("KEY_A", some "Keyenum")
  let b : String × Ty := ("KEY_B", some "Keyenum")
  let t : ClassTable := ⟨[("Input", inputInfo), ("@GlobalScope", scopeInfo [a, b])]⟩
  let t' : ClassTable := ⟨[("@GlobalScope", scopeInfo [b, a]), ("Input", inputInfo)]⟩
  have h : ofDocs [input, scope] = .ok t := by decide +kernel
  have h' : ofDocs [scope, input] = .ok t' := by decide +kernel
  have apart : [input, scope].Pairwise fun d e => ∀ a ∈ d.enumerators, a ∉ e.enumerators := by decide +kernel
  exact ⟨t, t', h, h', by decide +kernel, ofDocs_perm (.swap scope input []) (by decide) apart h h'⟩

end GdScribe
