import GdScribe.ClassTable.Changes
import GdScribe.Proofs.Classes.Owner
import GdScribe.Proofs.Target.Discreet
import Mathlib.Data.List.TakeWhile

/-!
# The tables of a class

What a run leaves in the class table, and in which class each member of a script is put down.

* `tableAfter`: the class table that a run had at a place of its history.
* `MembersFit`: the tables hold what was put down, and each member was put down in the class that
  encloses it by indentation.

Principal result: `members_recorded_by_indentation`.
-/

namespace GdScribe

open List

variable {σ : Type}

/-! ## What is new in tables -/

namespace ClassTable

/-- Nothing has changed in a class if and only if its tables are the same. -/
theorem tableChanges_eq_nil_iff {now before : ClassInfo} :
    tableChanges now before = [] ↔ ClassInfo.tables now = ClassInfo.tables before := by
  simp [tableChanges, ClassInfo.tables]

/-- **A table without changes** knows only classes that were known before, with the same tables. -/
theorem changes_eq_nil_iff {now before : ClassTable} : now.changes before = [] ↔
    ∀ e ∈ now.entries, ∃ old, before.find? e.1 = some old ∧ ClassInfo.tables e.2 = ClassInfo.tables old := by
  unfold changes
  rw [filterMap_eq_nil_iff]
  refine forall₂_congr fun e _ => ?_
  cases known : before.find? e.1 with
  | none => simp [known]
  | some old =>
    simp only [known, Option.some.injEq, exists_eq_left', ← tableChanges_eq_nil_iff]
    cases tableChanges e.2 old <;> simp

end ClassTable

/-! ## What is in the tables -/

/-- What is put down in a class, oldest first. -/
def entriesOf (c : String) (history : List Note) : List ClassEntry :=
  history.reverse.filterMap fun
    | .recorded owner e => if owner = c then some e else none
    | _ => none

/-- A class with entries in its tables. -/
def ClassInfo.putAll (i : ClassInfo) (es : List ClassEntry) : ClassInfo := es.foldl (fun i e => e.put i) i

theorem ClassInfo.putAll_base (i : ClassInfo) (es : List ClassEntry) (base : Option String) :
    putAll { i with base := base } es = { i.putAll es with base := base } := by
  induction es generalizing i with
  | nil => rfl
  | cons e es ih =>
    have put : e.put { i with base := base } = { e.put i with base := base } := by cases e <;> rfl
    show putAll (e.put { i with base := base }) es = _
    rw [put]
    exact ih (e.put i)

theorem entriesOf_recorded (c owner : String) (e : ClassEntry) (h : List Note) :
    entriesOf c (.recorded owner e :: h) = entriesOf c h ++ if owner = c then [e] else [] := by
  unfold entriesOf
  split <;> simp [*]

variable {n : Note}

theorem entriesOf_other (c : String) (hn : ∀ owner e, n ≠ .recorded owner e) (h : List Note) :
    entriesOf c (n :: h) = entriesOf c h := by
  unfold entriesOf
  rw [reverse_cons, filterMap_append]
  cases n with
  | recorded owner e => exact absurd rfl (hn owner e)
  | _ => simp

/-- The tables of all classes hold what was put down in them. -/
def TablesHold (start : ClassTable) (classes : ClassTable) (history : List Note) : Prop :=
  ∀ c, ∃ base, classes.info c = ClassInfo.putAll { start.info c with base := base } (entriesOf c history)

namespace TablesHold

variable {start classes : ClassTable} {history : List Note}

variable (h : TablesHold start classes history)

include h

theorem note (hn : ∀ owner e, n ≠ .recorded owner e) : TablesHold start classes (n :: history) := by
  intro c
  rw [entriesOf_other c hn]
  exact h c

theorem record (owner : String) (e : ClassEntry) :
    TablesHold start (classes.update owner e.put) (.recorded owner e :: history) := by
  intro c
  obtain ⟨base, hb⟩ := h c
  refine ⟨base, ?_⟩
  rw [ClassTable.info_update, entriesOf_recorded, hb]
  split
  · simp only [ClassInfo.putAll, foldl_append, foldl_cons, foldl_nil]
  · rw [append_nil]

theorem declare (name base : String) : TablesHold start (classes.declare name base) history := by
  intro c
  obtain ⟨b, hb⟩ := h c
  by_cases known : classes.contains name = true
  · exact ⟨b, by rw [ClassTable.declare, if_pos known, hb]⟩
  rw [ClassTable.info_declare _ _ _ (by simpa using known)]
  by_cases same : name = c
  · have none : classes.info c = {} := by
      rw [← same, ClassTable.info]
      simp only [Table.contains, Bool.not_eq_true, Option.isSome_eq_false_iff, Option.isNone_iff_eq_none] at known
      rw [known]
      rfl
    rw [none, ClassInfo.putAll_base] at hb
    refine ⟨some base, ?_⟩
    rw [if_pos same, ClassInfo.putAll_base]
    exact congrArg (fun i : ClassInfo => { i with base := some base }) hb
  · exact ⟨b, by rw [if_neg same, hb]⟩

end TablesHold

/-- The class table after some notes: the classes that were started, and what was put down in them. -/
def tableAfter (start : ClassTable) : List Note → ClassTable
  | [] => start
  | .recorded owner e :: before => (tableAfter start before).update owner e.put
  | .script name base :: before | .opened name base :: before => (tableAfter start before).declare name base
  | _ :: before => tableAfter start before

theorem tablesHold_tableAfter (start : ClassTable) (history : List Note) :
    TablesHold start (tableAfter start history) history := by
  induction history with
  | nil => exact fun _ => ⟨_, rfl⟩
  | cons n before ih =>
    cases n with
    | recorded owner e => exact ih.record owner e
    | script name base | opened name base => exact (ih.declare name base).note nofun
    | _ => exact ih.note nofun

variable {w : Writer σ} {main : String}

/-- **The class table is told by the notes**, at every point of a script, for a discreet target. -/
theorem table_invariant (hw : ∀ q, Discreet (w.serve q)) (hp : Discreet w.takePage) (start : ClassTable) :
    Read.Invariant (fun s : Reader σ => s.desk.classes = tableAfter start s.history) w where
  next s h := by
    unfold Reader.next
    split <;> exact h
  serve s q h := by
    rw [Read.endState_atDesk]
    exact (hw q s.desk).1.trans h
  takePage s h := by
    rw [Read.endState_atDesk]
    exact (hp s.desk).1.trans h
  note s n hn h := by cases n <;> first | exact h | cases hn
  learn s _ _ h := h
  use s _ h := h
  record s e h := congrArg (·.update s.className e.put) h
  enter s name base isMain h := by cases isMain <;> exact congrArg (·.declare name base) h

/-! ## What is put down for a member -/

/-- Whether a member may start at a note. -/
def Note.isMember : Note → Bool
  | .member _ => true
  | _ => false

theorem Note.isMember_eq_false_iff : n.isMember = false ↔ ∀ words, n ≠ .member words := by
  cases n <;> simp [isMember]

/-- What is put down for a member, by what happens after it, up to the next member. -/
def putDown (later : List Note) : List (String × ClassEntry) :=
  (later.reverse.takeWhile fun n => !n.isMember).filterMap fun
    | .recorded owner e => some (owner, e)
    | _ => none

variable {later before : List Note}

theorem mem_putDown_iff {owner : String} {e : ClassEntry} : (owner, e) ∈ putDown later ↔
      ∃ l2 l1, later = l2 ++ .recorded owner e :: l1 ∧ ∀ n ∈ l1, ∀ words, n ≠ .member words := by
  have found {ns : List Note} : (owner, e) ∈ (ns.filterMap fun
      | .recorded owner e => some (owner, e)
      | _ => none) ↔ .recorded owner e ∈ ns := by
    rw [mem_filterMap]
    constructor
    · rintro ⟨n, hn, he⟩
      split at he
      · cases he
        exact hn
      · cases he
    · exact fun h => ⟨_, h, rfl⟩
  unfold putDown
  rw [found]
  constructor
  · intro h
    obtain ⟨l1, rest, ht⟩ := append_of_mem h
    have before : ∀ n ∈ l1, ∀ words, n ≠ .member words := by
      intro n hn
      have hp := mem_takeWhile_imp (ht ▸ mem_append_left _ hn)
      exact Note.isMember_eq_false_iff.mp (by simpa using hp)
    have whole := takeWhile_append_dropWhile (p := fun n : Note => !n.isMember) (l := later.reverse)
    rw [ht] at whole
    refine ⟨((rest ++ later.reverse.dropWhile fun n => !n.isMember)).reverse, l1.reverse, ?_, ?_⟩
    · simpa using congrArg reverse whole.symm
    · intro n hn
      exact before n (mem_reverse.mp hn)
  · rintro ⟨l2, l1, rfl, hn⟩
    have before : ∀ n ∈ l1.reverse, (!n.isMember) = true := by
      intro n hm
      simpa using Note.isMember_eq_false_iff.mpr (hn n (mem_reverse.mp hm))
    have turned : (l2 ++ .recorded owner e :: l1).reverse = l1.reverse ++ .recorded owner e :: l2.reverse := by simp
    rw [turned, takeWhile_append_of_pos before]
    exact mem_append_right _ mem_cons_self

theorem AllOwned.of_append {h : List Note} : ∀ {ns : List Note}, AllOwned main (ns ++ h) → AllOwned main h
  | [], ho => ho
  | n :: ns, ho => by
    refine of_append (?_ : AllOwned main (ns ++ h))
    cases n with
    | recorded owner e => exact ho.2
    | _ => exact ho

variable {words : List String}

/-- What is put down for a member is put down in the class that encloses it. -/
theorem AllOwned.putDown (h : AllOwned main (later ++ .member words :: before)) {x : String × ClassEntry}
    (hx : x ∈ putDown later) : Owned main (standing before) x.1 := by
  obtain ⟨l2, l1, rfl, hn⟩ := mem_putDown_iff.mp hx
  rw [append_assoc, cons_append] at h
  have own := h.of_append.1
  rwa [memberStanding_append hn] at own

theorem Told.putDown (hd : isDeclaration words = true) :
    ∀ {later : List Note} {since : List ClassEntry}, Told since (later ++ .member words :: before) →
      (∃ x ∈ putDown later, Declares words x.2) ∨
        (∃ e ∈ since, Declares words e) ∧ ∀ n ∈ later, ∀ words, n ≠ .member words := by
  intro later
  induction later with
  | nil => exact fun h => .inr ⟨h.1 hd, nofun⟩
  | cons n later ih =>
    intro since h
    have older {x : String × ClassEntry} (hx : x ∈ GdScribe.putDown later) : x ∈ GdScribe.putDown (n :: later) := by
      obtain ⟨l2, l1, rfl, hn⟩ := mem_putDown_iff.mp hx
      exact mem_putDown_iff.mpr ⟨n :: l2, l1, rfl, hn⟩
    cases n with
    | member words' =>
      rcases ih h.2 with ⟨x, hx, hd⟩ | ⟨⟨_, he, _⟩, _⟩
      · exact .inl ⟨x, older hx, hd⟩
      · cases he
    | recorded owner e =>
      rcases ih (show Told (e :: since) _ from h) with ⟨x, hx, hd⟩ | ⟨⟨e', he, hd⟩, hn⟩
      · exact .inl ⟨x, older hx, hd⟩
      · rcases mem_cons.mp he with rfl | he
        · exact .inl ⟨(owner, e'), mem_putDown_iff.mpr ⟨[], later, rfl, hn⟩, hd⟩
        · exact .inr ⟨⟨e', he, hd⟩, forall_mem_cons.mpr ⟨nofun, hn⟩⟩
    | _ =>
      rcases ih h with ⟨x, hx, hd⟩ | ⟨he, hn⟩
      · exact .inl ⟨x, older hx, hd⟩
      · exact .inr ⟨he, forall_mem_cons.mpr ⟨nofun, hn⟩⟩

/-! ## Runs -/

/-- What a run leaves: the tables of every class hold what was put down in it, everything that is put
down for a member is put down in the class that encloses it by indentation, and each declaration is put
down if the run ends well. -/
structure MembersFit (start : ClassTable) (made : Outcome σ) : Prop where
  tables : TablesHold start made.desk.classes made.history
  members : ∃ main, (∀ name base, .script name base ∈ made.history → name = main) ∧
    ∀ later words before, made.history = later ++ .member words :: before →
      (∀ x ∈ putDown later, Owned main (standing before) x.1) ∧
      (made.fault = none → isDeclaration words = true → ∃ x ∈ putDown later, Declares words x.2)

theorem membersFit_of_discreet (hw : ∀ q, Discreet (w.serve q)) (hp : Discreet w.takePage)
    (name text : String) (desk : Desk σ) : MembersFit desk.classes (run w name text desk) := by
  constructor
  · obtain ⟨s, hs, hh, hc⟩ := run_of_invariant (table_invariant hw hp desk.classes) name text desk
      fun s hh _ hc => by rw [hc, hh]; rfl
    rw [hh, hc, hs]
    exact tablesHold_tableAfter _ _
  · cases h : (scan (text ++ "\n")).lexemes with
    | nil =>
      have nothing : (run w name text desk).history = [] := by
        unfold run
        simp only [h]
      rw [nothing]
      exact ⟨"", nofun, fun later words before hh => by simp at hh⟩
    | cons first rest =>
      rw [run_cons w name desk h]
      have sound := Read.script_sound (w := w) (n := Read.depth (rest.length + 1)) name rfl rfl rfl
        (s := startOf text desk first rest)
      unfold Read.Goes at sound
      generalize Read.script w _ name _ = result at sound ⊢
      cases result with
      | ok a s' =>
        obtain ⟨main, sound, told⟩ := sound
        refine ⟨main, sound.script, fun later words before hh => ⟨fun x hx => ?_, fun _ hd => ?_⟩⟩
        · have owned := sound.owned
          rw [show s'.history = _ from hh] at owned
          exact owned.putDown hx
        · rw [show s'.history = _ from hh] at told
          rcases told.putDown hd with found | ⟨⟨_, he, _⟩, _⟩
          · exact found
          · cases he
      | error e s' =>
        obtain ⟨main, sound⟩ := sound
        refine ⟨main, sound.script, fun later words before hh => ⟨fun x hx => ?_, nofun⟩⟩
        have owned := sound.owned
        rw [show s'.history = _ from hh] at owned
        exact owned.putDown hx

/-- **Members are put down where their indentation says**, in every script and for every class table, by
the pass that collects and by the one that writes C#. A line after the accessors of a property counts
only if it is indented at least as the property, and a class ends with a `pass` among its members. -/
theorem members_recorded_by_indentation (s : Target.Settings) (name text : String) (desk : Desk Unit)
    (desk' : Desk (Pages CSharp.State)) :
    MembersFit desk.classes (run Collect.writer name text desk) ∧
      MembersFit desk'.classes (run (CSharp.writer s) name text desk') :=
  ⟨membersFit_of_discreet Collect.serve_discreet (.pure _) name text desk,
    membersFit_of_discreet (CSharp.serve_discreet s) Page.takePage_discreet name text desk'⟩

theorem members_recorded_by_indentation_inner :
    ∃ later words before, (run (CSharp.writer {}) "S"
        "class A:\n\tfunc f():\n\t\treturn 1\n\tvar x = 2\nvar y = 3" ⟨{}, #[], CSharp.start⟩).history =
        later ++ .member words :: before ∧ (standing before).nest = [("A", 0)] ∧
      ∃ x ∈ putDown later, x.1 = "A" ∧ Declares ["var", "x", "="] x.2 := by
  have fit := (members_recorded_by_indentation {} "S"
    "class A:\n\tfunc f():\n\t\treturn 1\n\tvar x = 2\nvar y = 3" ⟨{}, #[], ()⟩ ⟨{}, #[], CSharp.start⟩).2
  have ended : (run (CSharp.writer {}) "S" "class A:\n\tfunc f():\n\t\treturn 1\n\tvar x = 2\nvar y = 3"
      ⟨{}, #[], CSharp.start⟩).fault = none := by decide +kernel
  have found :
      let rest := (run (CSharp.writer {}) "S"
        "class A:\n\tfunc f():\n\t\treturn 1\n\tvar x = 2\nvar y = 3" ⟨{}, #[], CSharp.start⟩).history.dropWhile
          (· ≠ .member ["var", "x", "="])
      rest.head? = some (.member ["var", "x", "="]) ∧ standing rest.tail = ⟨1, true, [("A", 0)]⟩ := by decide +kernel
  obtain ⟨main, -, members⟩ := fit.members
  generalize (run _ _ _ _).history = history at members found ⊢
  have whole := takeWhile_append_dropWhile (p := (· ≠ .member ["var", "x", "="])) (l := history)
  generalize history.dropWhile _ = rest at whole found
  obtain ⟨here, stands⟩ := found
  obtain ⟨before, rfl⟩ := head?_eq_some_iff.mp here
  rw [tail_cons] at stands
  obtain ⟨owned, told⟩ := members _ _ _ whole.symm
  obtain ⟨x, hx, declared⟩ := told ended (by decide)
  have own := owned x hx
  rw [stands] at own
  exact ⟨_, _, before, whole.symm, by rw [stands], x, hx, (own rfl).2 "A" 0 [] rfl rfl rfl, declared⟩

/-- A member after the accessors of a property at the end of an inner class is put down in that class. -/
theorem member_after_accessors_misplaced :
    let text := "class A:\n\tvar x:\n\t\tget:\n\t\t\treturn 1\nvar y = 2"
    let made := run Collect.writer "S" text ⟨{}, #[], ()⟩
    let made' := run (CSharp.writer {}) "S" text ⟨{}, #[], CSharp.start⟩
    ((made.desk.classes.info "A").members.contains "y" = true ∧
        (made.desk.classes.info "S").members.contains "y" = false) ∧
      (made'.desk.classes.info "A").members.contains "y" = true ∧
        (made'.desk.classes.info "S").members.contains "y" = false := by
  decide +kernel

end GdScribe
