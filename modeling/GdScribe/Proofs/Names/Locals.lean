import GdScribe.Proofs.Reader.CourseScript
import GdScribe.Target.CSharp.Writer

/-!
# Local names

A name is local from the place on where a parameter, a variable or a loop introduces it. What a bare
name is taken for where it is used, and how it is written then, is read off the history of a run.

* `Use.Fits`: what a name is taken for, by what was known where it stands.
* `EachUse`: what holds of each bare name of a history and of the notes before it.

Principal result: `CSharp.local_name_means_local`.
-/

namespace GdScribe

/-- The type with which a name was introduced last. -/
def lastLearned (name : String) : List Note → Option Ty
  | [] => none
  | .learned n type :: rest => if n = name then some type else lastLearned name rest
  | _ :: rest => lastLearned name rest

variable {u : Use} {before : List Note}

namespace Use

/-- Whether no member of the class, of its base class or of everything has the name. -/
def isFree (u : Use) : Bool :=
  !u.own.members.contains u.name && !u.base.members.contains u.name && !u.globals.members.contains u.name

/-- What a bare name is taken for: a member of the class or of its base class comes before the name
that was introduced last. -/
structure Fits (u : Use) (before : List Note) : Prop where
  role : u.role = if u.globals.members.contains u.name then .singleton
    else if u.own.members.contains u.name || u.base.members.contains u.name then .property else .variable
  type : ∃ other, u.type = (u.own.members.ty u.name).orElse ((u.base.members.ty u.name).orElse
    (Ty.orElse (lastLearned u.name before).join other))

theorem untyped_of_isFree (h : u.isFree = true) :
    u.own.members.ty u.name = none ∧ u.base.members.ty u.name = none := by
  simp only [isFree, Table.contains, Bool.and_eq_true, Bool.not_eq_true', Option.isSome_eq_false_iff,
    Option.isNone_iff_eq_none] at h
  exact ⟨by rw [Table.ty, h.1.1]; rfl, by rw [Table.ty, h.1.2]; rfl⟩

end Use

/-- Each bare name of a history stands in a relation to the notes before it. -/
def EachUse (P : Use → List Note → Prop) : List Note → Prop
  | [] => True
  | .used u :: rest => P u rest ∧ EachUse P rest
  | _ :: rest => EachUse P rest

theorem EachUse.holds {P : Use → List Note → Prop} :
    ∀ {later : List Note}, EachUse P (later ++ .used u :: before) → P u before
  | [], h => h.1
  | n :: later, h => by
    refine holds (?_ : EachUse P (later ++ .used u :: before))
    cases n with
    | used v => exact h.2
    | _ => exact h

/-- The last bare name of a history that is the given one, with the notes before it. -/
def lastUse (name : String) : List Note → Option (Use × List Note)
  | [] => none
  | .used u :: rest => if u.name = name then some (u, rest) else lastUse name rest
  | _ :: rest => lastUse name rest

theorem exists_of_lastUse {name : String} {p : Use × List Note → Bool} {history : List Note}
    (h : (lastUse name history).any p = true) :
    ∃ later u before, history = later ++ .used u :: before ∧ p (u, before) = true := by
  induction history with
  | nil => cases h
  | cons n rest ih =>
    have further (h : (lastUse name rest).any p = true) :
        ∃ later u before, n :: rest = later ++ .used u :: before ∧ p (u, before) = true := by
      obtain ⟨later, u, before, rfl, hu⟩ := ih h
      exact ⟨n :: later, u, before, rfl, hu⟩
    cases n with
    | used v =>
      rw [lastUse] at h
      split at h
      · exact ⟨[], v, rest, rfl, h⟩
      · exact further h
    | _ => exact further h

/-- The local names of a reader are those that it learned, and all bare names fit. -/
structure LocalsFit (locals : Table Ty) (history : List Note) : Prop where
  learned : ∀ x, locals.find? x = lastLearned x history
  uses : EachUse Use.Fits history

namespace LocalsFit

variable {locals : Table Ty} {history : List Note}

theorem note (h : LocalsFit locals history) {n : Note} (hl : ∀ x t, n ≠ .learned x t)
    (hu : ∀ u, n ≠ .used u) : LocalsFit locals (n :: history) := by
  cases n with
  | learned x t => exact absurd rfl (hl x t)
  | used u => exact absurd rfl (hu u)
  | _ => exact ⟨h.learned, h.uses⟩

theorem learn (h : LocalsFit locals history) (name : String) (type : Ty) :
    LocalsFit (locals.put name type) (.learned name type :: history) := by
  refine ⟨fun x => ?_, h.uses⟩
  rw [Table.find?_put, lastLearned, h.learned]

end LocalsFit

namespace Read

variable {σ : Type}

theorem useOf_fits {s : Reader σ} (h : LocalsFit s.locals s.history) (name : String) :
    (useOf s name).Fits s.history := by
  refine ⟨rfl, ?_⟩
  have local_eq : s.locals.ty name = (lastLearned name s.history).join := by
    rw [Table.ty, h.learned]
  unfold useOf nameType
  rw [local_eq]
  exact ⟨_, rfl⟩

/-- **Local names fit at every point of a script**, for every target. -/
theorem localsFit_invariant (w : Writer σ) : Invariant (fun s : Reader σ => LocalsFit s.locals s.history) w where
  next s h := by
    unfold Reader.next
    split <;> exact h
  serve s q h := by rw [endState_atDesk]; exact h
  takePage s h := by rw [endState_atDesk]; exact h
  note s n hn h := h.note (fun x t hx => by rw [hx] at hn; cases hn) fun u hu => by rw [hu] at hn; cases hn
  learn s name type h := h.learn name type
  use s name h := ⟨h.learned, useOf_fits h name, h.uses⟩
  record s e h := h.note nofun nofun
  enter s name base isMain h := by
    cases isMain <;> exact h.note nofun nofun

end Read

theorem run_uses_fit {σ : Type} (w : Writer σ) (name text : String) (desk : Desk σ) :
    EachUse Use.Fits (run w name text desk).history := by
  obtain ⟨s, hs, hh, -⟩ := run_of_invariant (Read.localsFit_invariant w) name text desk
    fun s hh hl _ => by rw [hl, hh]; exact ⟨fun _ => rfl, trivial⟩
  rw [hh]
  exact hs.uses

namespace CSharp

open Target (Settings)

/-- How a local name is written where it is introduced, as a variable, by a loop and as a parameter. -/
structure DeclaredAs (s : Settings) (name spelled : String) : Prop where
  variable_text : ∀ type init, serve s (.localVariable type name init) = do
    put ("var " ++ spelled)
    match init with
    | some e => (dialect s).assignment e
    | none => return
  loop_text : ∀ type e, serve s (.forHead name type e) =
    (dialect s).between ("foreach(" ++ type ++ " " ++ spelled ++ " in ") e ")"
  param_text : ∀ type, paramText s (name, type) = do return (← typeText s type) ++ " " ++ spelled

/-- A bare name is written as it was introduced. -/
def SpelledAlike (s : Settings) (u : Use) : Prop :=
  ∃ spelled, DeclaredAs s u.name spelled ∧ (dialect s).expr (.name u.role u.name) = put spelled

/-- **A local name means the local** if no member has its name. For every script and every class table:
a bare name that was introduced as a local with a known type is taken for a variable if and only if no
member of the class, of its base class or of everything has that name. It then has the type of the local
and is written as it was introduced, unless C# has its own word for it; otherwise the type of a member
comes first. -/
theorem local_name_means_local (s : Settings) (name text : String) (desk : Desk (Pages State))
    {later before : List Note} {u : Use} {t : Ty}
    (hrun : (run (writer s) name text desk).history = later ++ .used u :: before)
    (ht : lastLearned u.name before = some t) (known : t.known = true) :
    (u.role = .variable ↔ u.isFree = true) ∧
      u.type = (u.own.members.ty u.name).orElse ((u.base.members.ty u.name).orElse t) ∧
      (u.isFree = true → u.type = t ∧ (variableName s u.name = u.name → SpelledAlike s u)) := by
  have fits : u.Fits before := (hrun ▸ run_uses_fit (writer s) name text desk).holds
  obtain ⟨role, other, type⟩ := fits
  have chosen : Ty.orElse (lastLearned u.name before).join other = t := by
    rw [ht, Option.join_some, Ty.orElse, if_pos known]
  rw [chosen] at type
  have role_iff : u.role = .variable ↔ u.isFree = true := by
    rw [role]
    unfold Use.isFree
    cases u.globals.members.contains u.name <;> cases u.own.members.contains u.name <;>
      cases u.base.members.contains u.name <;> simp
  refine ⟨role_iff, type, fun free => ⟨?_, fun spelled => ?_⟩⟩
  · obtain ⟨own, base⟩ := Use.untyped_of_isFree free
    rw [type, own, base]
    rfl
  · refine ⟨u.name, ⟨fun _ init => by cases init <;> rfl, fun _ _ => rfl, fun _ => rfl⟩, ?_⟩
    rw [role_iff.mpr free]
    show put (variableName s u.name) = put u.name
    rw [spelled]

theorem local_name_means_local_parameter :
    ∃ later u before, (run (writer {}) "S" "func f(x : String):\n\treturn x" ⟨{}, #[], start⟩).history =
        later ++ .used u :: before ∧
      u.type = some "String" ∧ u.role = .variable ∧ SpelledAlike {} u := by
  have used : (lastUse "x" (run (writer {}) "S" "func f(x : String):\n\treturn x" ⟨{}, #[], start⟩).history).any
      (fun e => decide (lastLearned e.1.name e.2 = some (some "String") ∧ e.1.isFree = true ∧
        variableName {} e.1.name = e.1.name)) = true := by
    decide +kernel
  obtain ⟨later, u, before, whole, found⟩ := exists_of_lastUse used
  obtain ⟨learned, free, spelled⟩ := of_decide_eq_true found
  obtain ⟨role, -, meant⟩ := local_name_means_local {} _ _ _ whole learned (by decide)
  exact ⟨later, u, before, whole, (meant free).1, role.mpr free, (meant free).2 spelled⟩

/-- A member that shares its name with a parameter takes its place. -/
theorem member_hides_parameter :
    let text := "var x = 1\nfunc f(x : String):\n\treturn x"
    let made := run (writer {}) "S" text ⟨{}, #[], start⟩
    Text.occursIn "F(String x)\n\t\x7b\n\t\treturn X;" made.desk.pages.page = true ∧
      (made.desk.classes.info "S").methods.ty "f" = some "int" := by
  decide +kernel

end CSharp

end GdScribe
