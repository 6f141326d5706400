import GdScribe.Proofs.Classes.Tables
import GdScribe.Proofs.Names.Locals

/-!
# Members of base classes

A name that a class does not have itself is looked for in the record of its base class. The classes
of a script are recorded with their own entries only, so what stands further up in a row of them is
not found there. The built-in classes have the entries of all their ancestors.

* `Lineage`: classes of a table, each with the next one as its base.
* `Use.StandsIn`: a bare name stands in a class of a table.
* `CSharp.SeenInBase`: what a name is taken for that the base class may have.

Principal result: `CSharp.inherited_seen_in_base_only`.
-/

namespace GdScribe

/-- Classes of a table in a row, each with the next one as its base. -/
inductive Lineage (t : ClassTable) : List String → Prop
  | last {c : String} (known : t.contains c = true) : Lineage t [c]
  | link {c base : String} {others : List String} (known : t.contains c = true)
    (link : (t.info c).base = some base) (rest : Lineage t (base :: others)) : Lineage t (c :: base :: others)

namespace Lineage

variable {t : ClassTable} {c base : String} {others : List String}

theorem contains (h : Lineage t (c :: others)) : t.contains c = true := by
  cases h with
  | last known => exact known
  | link known => exact known

theorem parent_eq (h : Lineage t (c :: base :: others)) : t.parent c = t.info base := by
  cases h with
  | link _ link rest =>
    obtain ⟨info, found⟩ := Option.isSome_iff_exists.mp rest.contains
    simp only [ClassTable.parent, ClassTable.info] at link ⊢
    rw [link, Option.bind_some, found]
    rfl

end Lineage

namespace Read

variable {σ : Type}

theorem served_classes {α : Type} {x : DeskM σ α} (hx : Discreet x) {d d' : Desk σ} {a : α}
    (h : x d = .ok a d') : d'.classes = d.classes := by
  have kept := (hx d).1
  rwa [h] at kept

/-- What a method that was read asks of the target: it overrides one that the base class has. -/
theorem method_asks {w : Writer σ} (hw : ∀ q, Discreet (w.serve q)) {r : Rules σ} {static : Bool}
    {s s' : Reader σ} (h : method w r static s = .ok () s') :
    ∃ m earlier, s'.asked = .method m :: earlier ∧ m.static = static ∧
      m.override = (!static && s'.parentClass.methods.contains m.name) := by
  obtain ⟨name, s1, -, h⟩ := bind_eq_ok h
  obtain ⟨-, s2, -, h⟩ := bind_eq_ok h
  obtain ⟨d, s3, -, h⟩ := bind_eq_ok h
  obtain ⟨-, s4, -, h⟩ := bind_eq_ok h
  obtain ⟨declared, s5, -, h⟩ := bind_eq_ok h
  obtain ⟨-, s6, -, h⟩ := bind_eq_ok h
  obtain ⟨⟨t, code⟩, s7, -, h⟩ := bind_eq_ok h
  obtain ⟨-, s8, -, h⟩ := bind_eq_ok h
  obtain ⟨desk, served, rfl⟩ := ask_eq_ok h
  refine ⟨_, s8.asked, rfl, rfl, ?_⟩
  have classes : desk.classes = s8.desk.classes := served_classes (hw _) served
  show (!static && (s8.desk.classes.parent s8.className).methods.contains name) =
    (!static && (desk.classes.parent s8.className).methods.contains name)
  rw [classes]

end Read

/-- What was known where a bare name stands is what a table has. -/
structure Use.StandsIn (u : Use) (t : ClassTable) : Prop where
  own : u.own = t.info u.owner
  base : u.base = t.parent u.owner
  globals : u.globals = t.globals

/-- **Bare names stand in the table of their time**, which the notes before them tell. -/
theorem run_uses_stand {σ : Type} {w : Writer σ} (hw : ∀ q, Discreet (w.serve q)) (hp : Discreet w.takePage)
    (name text : String) (desk : Desk σ) :
    EachUse (fun u before => u.StandsIn (tableAfter desk.classes before)) (run w name text desk).history := by
  have table := table_invariant hw hp desk.classes
  have stands : Read.Invariant (fun s : Reader σ => s.desk.classes = tableAfter desk.classes s.history ∧
      EachUse (fun u before => u.StandsIn (tableAfter desk.classes before)) s.history) w := {
    next := fun s h => ⟨table.next s h.1, by unfold Reader.next; split <;> exact h.2⟩
    serve := fun s q h => ⟨table.serve s q h.1, by rw [Read.endState_atDesk]; exact h.2⟩
    takePage := fun s h => ⟨table.takePage s h.1, by rw [Read.endState_atDesk]; exact h.2⟩
    note := fun s n hn h => ⟨table.note s n hn h.1, by cases n <;> first | exact h.2 | cases hn⟩
    learn := fun s n t h => ⟨table.learn s n t h.1, h.2⟩
    use := fun s n h => ⟨h.1, ⟨by rw [← h.1]; rfl, by rw [← h.1]; rfl, by rw [← h.1]; rfl⟩, h.2⟩
    record := fun s e h => ⟨table.record s e h.1, h.2⟩
    enter := fun s n base isMain h => ⟨table.enter s n base isMain h.1, by cases isMain <;> exact h.2⟩ }
  obtain ⟨s, hs, hh, -⟩ := run_of_invariant stands name text desk
    fun s hh _ hc => by rw [hh, hc]; exact ⟨rfl, trivial⟩
  rw [hh]
  exact hs.2

namespace CSharp

open Read Target

/-- What a name is taken for that the class itself does not have: a property if the record of its base class has it,
with the type that is recorded there, and a variable otherwise. -/
structure SeenInBase (z : Settings) (base : ClassInfo) (name : String) (r : NameRole) (t : Ty) : Prop where
  role : r = .property ↔ base.members.contains name = true
  type : (base.members.ty name).known = true → t = base.members.ty name
  written : (dialect z).expr (.name r name) =
    put (if base.members.contains name then pascal name else variableName z name)

theorem seenInBase (z : Settings) {u : Use} (own : u.own.members.contains u.name = false)
    (globals : u.globals.members.contains u.name = false)
    (hr : u.role = if u.globals.members.contains u.name then .singleton
      else if u.own.members.contains u.name || u.base.members.contains u.name then .property else .variable)
    {other : Ty} (ht : u.type = (u.own.members.ty u.name).orElse ((u.base.members.ty u.name).orElse other)) :
    SeenInBase z u.base u.name u.role u.type := by
  have role : u.role = if u.base.members.contains u.name then .property else .variable := by
    rw [hr, globals, own]
    rfl
  refine ⟨?_, fun known => ?_, ?_⟩
  · rw [role]
    split <;> simp_all
  · have untyped : u.own.members.ty u.name = none := by
      rw [Table.ty, Option.isSome_eq_false_iff.mp own |> Option.isNone_iff_eq_none.mp]
      rfl
    rw [ht, untyped, Ty.orElse, if_neg (by decide), Ty.orElse, if_pos known]
  · rw [role]
    split <;> rfl

/-- **Inherited names are seen through the base class only.** In every run, and in every state of a reader, whose class
has others above it: a name that is neither a member of the class nor a global one is taken for a property if and only
if the record of the base class has it as a member; it then has the type that is recorded there and is written in Pascal
case, else it is written as a variable. A method that was read is marked as overriding if and only if it is not static
and the record of the base class has it as a method. What the classes further up have makes no difference. -/
theorem inherited_seen_in_base_only (z : Settings) :
    (∀ (name text : String) (desk : Desk (Pages State)) {later before : List Note} {u : Use} {base : String}
      {others : List String}, (run (writer z) name text desk).history = later ++ .used u :: before →
      Lineage (tableAfter desk.classes before) (u.owner :: base :: others) →
      ((tableAfter desk.classes before).info u.owner).members.contains u.name = false →
      (tableAfter desk.classes before).globals.members.contains u.name = false →
      SeenInBase z ((tableAfter desk.classes before).info base) u.name u.role u.type) ∧
    ∀ {s : Reader (Pages State)} {base : String} {others : List String},
      Lineage s.desk.classes (s.className :: base :: others) →
      (∀ name, s.ownClass.members.contains name = false → s.desk.classes.globals.members.contains name = false →
        SeenInBase z (s.desk.classes.info base) name (nameRole s name) (nameType s name)) ∧
      ∀ {r static before}, Read.method (writer z) r static before = .ok () s →
        ∃ m earlier, s.asked = .method m :: earlier ∧
          (m.override = true ↔ static = false ∧ (s.desk.classes.info base).methods.contains m.name = true) := by
  refine ⟨fun name text desk later before u base others hrun line own globals => ?_, fun {s base others} line => ?_⟩
  · obtain ⟨role, other, type⟩ : u.Fits before := (hrun ▸ run_uses_fit (writer z) name text desk).holds
    have stands := hrun ▸ run_uses_stand (serve_discreet z) Page.takePage_discreet name text desk
    obtain ⟨hown, hbase, hglobals⟩ := stands.holds
    rw [← hown] at own
    rw [← hglobals] at globals
    rw [← line.parent_eq, ← hbase]
    exact seenInBase z own globals role type
  · have parent : s.parentClass = s.desk.classes.info base := line.parent_eq
    refine ⟨fun name own globals => ?_, fun h => ?_⟩
    · rw [← parent]
      exact seenInBase z (u := useOf s name) own globals rfl rfl
    · obtain ⟨m, earlier, asked, -, override⟩ := method_asks (serve_discreet z) h
      refine ⟨m, earlier, asked, ?_⟩
      rw [override, parent, Bool.and_eq_true, Bool.not_eq_true']

/-- A class whose base class is one of a script, below a built-in class. -/
def enemyTable : ClassTable :=
  .ofList [("Node", { members := .ofList [("process_priority", some "int")],
                      methods := .ofList [("_ready", none)] }),
    ("Actor", { base := some "Node", members := .ofList [("speed", some "float")],
                methods := .ofList [("act", none)] }),
    ("Enemy", { base := some "Actor" })]

/-- What a run over the class `Enemy` leaves. -/
def enemyRun : Outcome (Pages State) :=
  run (writer {}) "Enemy" "class_name Enemy\nextends Actor\nfunc f():\n\treturn speed + process_priority\n"
    ⟨enemyTable, #[], start⟩

/-- A reader in the class `Enemy`, after the word that starts a method of the given name. -/
def beforeMethod (name : String) : Reader (Pages State) :=
  readerAt ["Enemy"] ⟨enemyTable, #[], start⟩ (name ++ "():\n\tpass\n")

/-- The method was read there, and the target was asked for it. -/
def AskedFor (name : String) (s : Reader (Pages State)) (m : Method) : Prop :=
  Read.method (writer {}) (rules (writer {}) 9) false (beforeMethod name) = .ok () s ∧ s.asked.head? = some (.method m)

/-- In `Enemy` the member and the method of `Actor` are seen, those of `Node` are not. -/
theorem inherited_seen_in_base_only_enemy : Lineage enemyTable ["Enemy", "Actor", "Node"] ∧
    (∃ later u before, enemyRun.history = later ++ .used u :: before ∧ u.name = "speed" ∧ u.role = .property ∧
      u.type = some "float") ∧
    (∃ later u before, enemyRun.history = later ++ .used u :: before ∧ u.name = "process_priority" ∧
      u.role ≠ .property) ∧
    ∃ s s' m m', AskedFor "act" s m ∧ m.override = true ∧ AskedFor "_ready" s' m' ∧ m'.override = false := by
  have line : Lineage enemyTable ["Enemy", "Actor", "Node"] :=
    .link (by decide) (by decide) (.link (by decide) (by decide) (.last (by decide)))
  have use (name : String) (own : (enemyTable.info "Enemy").members.contains name = false)
      (globals : enemyTable.globals.members.contains name = false) (h : (lastUse name enemyRun.history).any
        (fun e => decide (e.1.name = name ∧ e.1.owner = "Enemy" ∧ tableAfter enemyTable e.2 = enemyTable)) = true) :
      ∃ later u before, enemyRun.history = later ++ .used u :: before ∧ u.name = name ∧
        SeenInBase {} (enemyTable.info "Actor") name u.role u.type := by
    obtain ⟨later, u, before, whole, found⟩ := exists_of_lastUse h
    obtain ⟨rfl, owner, table⟩ := of_decide_eq_true found
    have above : Lineage (tableAfter enemyTable before) [u.owner, "Actor", "Node"] := by rw [table, owner]; exact line
    have seen := (inherited_seen_in_base_only {}).1 _ _ _ whole above (by rw [table, owner]; exact own)
      (by rw [table]; exact globals)
    rw [table] at seen
    exact ⟨later, u, before, whole, rfl, seen⟩
  have read (name : String) (t : ClassTable) (above : Lineage t ["Enemy", "Actor", "Node"])
      (h : endsIn (fun s => decide (s.className = "Enemy" ∧ s.desk.classes = t) && s.asked.head?.any fun
        | .method m => decide (m.name = name)
        | _ => false) (Read.method (writer {}) (rules (writer {}) 9) false (beforeMethod name)) = true) :
      ∃ s m, AskedFor name s m ∧ (m.override = true ↔ (t.info "Actor").methods.contains name = true) := by
    obtain ⟨_, s, done, facts⟩ := exists_of_endsIn h
    obtain ⟨place, named⟩ := Bool.and_eq_true_iff.mp facts
    obtain ⟨own, table⟩ := of_decide_eq_true place
    obtain ⟨m, _, asked, override⟩ := ((inherited_seen_in_base_only {}).2 (by rw [table, own]; exact above)).2 done
    rw [asked] at named
    rw [table, (of_decide_eq_true named : m.name = name)] at override
    exact ⟨s, m, ⟨done, by rw [asked]; rfl⟩, by simpa using override⟩
  obtain ⟨_, _, _, speed, hs, seen⟩ := use "speed" (by decide) (by decide) (by decide +kernel)
  obtain ⟨_, _, _, priority, hp, hidden⟩ := use "process_priority" (by decide) (by decide) (by decide +kernel)
  obtain ⟨s, m, act, overrides⟩ := read "act" (enemyTable.update "Enemy" (ClassEntry.method "act" none).put)
    (.link (by decide) (by decide) (.link (by decide) (by decide) (.last (by decide)))) (by decide +kernel)
  obtain ⟨s', m', ready, differs⟩ := read "_ready" (enemyTable.update "Enemy" (ClassEntry.method "_ready" none).put)
    (.link (by decide) (by decide) (.link (by decide) (by decide) (.last (by decide)))) (by decide +kernel)
  refine ⟨line, ⟨_, _, _, speed, hs, seen.role.mpr (by decide), seen.type (by decide)⟩,
    ⟨_, _, _, priority, hp, fun h => absurd (hidden.role.mp h) (by decide)⟩, s, s', m, m', act,
    overrides.mpr (by decide), ready, ?_⟩
  cases ho : m'.override with
  | false => rfl
  | true => exact absurd (differs.mp ho) (by decide)

/-- What `Node` has is not seen below a class of a script: a member is written as a variable without a
type, and a method is not marked. -/
theorem grandparent_not_seen :
    let text := "class_name Enemy\nextends Actor\nfunc f():\n\treturn process_priority\nfunc _ready():\n\tpass"
    let made := run (writer {}) "Enemy" text ⟨enemyTable, #[], start⟩
    made.fault = none ∧ (made.desk.classes.info "Enemy").methods.ty "f" = none ∧
      Text.occursIn "return process_priority;" made.desk.pages.page = true ∧
      Text.occursIn "protected void _Ready()" made.desk.pages.page = true := by
  decide +kernel

end CSharp

end GdScribe
