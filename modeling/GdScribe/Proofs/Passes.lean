import GdScribe.Proofs.Reader.PairedScript
import GdScribe.Proofs.Target.Discreet

/-!
# Two passes over a script

A project is read twice: once to collect its classes, once to write it. Both passes run the same
reader for different targets, and go through a script in the same way.

* `passes`: the pairing of two discreet targets. A pass that ends in a fault is compared with
  nothing.

Principal result: `collecting_reads_as_writing`.
-/

namespace GdScribe.Read

variable {σ τ : Type}

/-- Readers for two targets that have read the same so far. -/
structure SameView (s : Reader σ) (t : Reader τ) : Prop extends Near Eq Eq s t where
  ahead : s.ahead = t.ahead
  closing : s.closing = t.closing
  moves : s.moves = t.moves
  passed : s.passed = t.passed
  readings : s.desk.readings = t.desk.readings

/-- Two passes that go through the same script. Texts taken from pages can differ. -/
def passes (σ τ : Type) : Pairing σ τ where
  token := Eq
  text _ _ := True
  contents := Eq
  table := Eq
  place := id
  agree := SameView
  lost _ := False
  lax _ := True

theorem readings_print (d : Desk σ) (lines : List String) :
    (d.print lines).readings = d.readings ++ lines.map .printed := by
  unfold Desk.print
  induction lines generalizing d with
  | nil => simp
  | cons l ls ih =>
    have h := ih (d.note (.printed l))
    simp only [Desk.readings, Desk.note, List.foldl_cons] at h ⊢
    rw [h, Array.toList_push, List.filter_append, List.append_assoc]
    rfl

theorem readings_note (d : Desk σ) (line : String) :
    (d.note (.readStep line)).readings = d.readings ++ [.readStep line] := by
  simp [Desk.readings, Desk.note, Event.isReading]

namespace SameView

variable {s : Reader σ} {t : Reader τ}

variable (h : SameView s t)

include h

theorem next : SameView s.next t.next := by
  obtain ⟨⟨place, hc, table⟩, ha, hl, hm, hp, hr⟩ := h
  unfold Reader.next
  rw [← ha]
  cases s.ahead with
  | nil =>
    refine ⟨⟨{ place with }, by rw [hc], table⟩, rfl, rfl, by rw [hm], by rw [hc, hp], ?_⟩
    rw [readings_print, readings_print, hr, hl]
  | cons l rest =>
    refine ⟨⟨{ place with }, rfl, table⟩, rfl, hl, by rw [hm], by rw [hc, hp], ?_⟩
    rw [readings_print, readings_print, hr]

theorem note (line : String) : SameView { s with desk := s.desk.note (.readStep line) }
      { t with desk := t.desk.note (.readStep line) } :=
  { h with readings := by rw [readings_note, readings_note, h.readings] }

theorem print (line : String) :
    SameView { s with desk := s.desk.print [line] } { t with desk := t.desk.print [line] } :=
  { h with readings := by rw [readings_print, readings_print, h.readings] }

theorem consume : (passes σ τ).Match Eq (consume s) (consume t) := by
  have same : s.current.value = t.current.value := by rw [h.current]
  have h' := h.next.note ("consumed: " ++ s.current.value)
  rw [consume_apply]
  rw [same] at h' ⊢
  exact .inr ⟨rfl, h'⟩

omit h

/-- Discreet actions at both desks leave the same in view, whatever they write. -/
theorem atDesk {α : Type} {R : α → α → Prop} (h : SameView s t) {x : DeskM σ α} {y : DeskM τ α}
    (hx : Discreet x) (hy : Discreet y) (hR : ∀ a b, R a b) :
    (passes σ τ).Match R (atDesk x s) (atDesk y t) :=
  .atDesk (fun _ => trivial) hR { h with
    table := (hx _).1.trans (h.table.trans (hy _).1.symm)
    readings := (hx _).2.trans (h.readings.trans (hy _).2.symm) }

end SameView

/-- **Discreet targets.** Readers for two of them go through a script in the same way. -/
theorem passes_lockStep [Inhabited τ] {v : Writer σ} {w : Writer τ} (hv : ∀ q, Discreet (v.serve q))
    (hv' : Discreet v.takePage) (hw : ∀ q, Discreet (w.serve q)) (hw' : Discreet w.takePage) :
    (passes σ τ).LockStep v w := by
  have asked (q q' : Request) : Paired (passes σ τ) Eq (ask v q) (ask w q') :=
    ⟨fun s t h => SameView.atDesk (s := { s with asked := q :: s.asked })
      (t := { t with asked := q' :: t.asked }) { h with } (hv q) (hw q') fun _ _ => rfl, fun _ => id⟩
  have printed (line : String) : Paired (passes σ τ) Eq (print line : ReadM σ Unit) (print line : ReadM τ Unit) :=
    .change (fun _ _ h => h.print line) fun _ => id
  exact
    { endless := trivial
      place := Function.injective_id
      token_refl := fun _ => rfl
      kind := fun h => .inl (congrArg _ h)
      value := fun h _ _ => congrArg _ h
      word := fun h x _ => by rw [show _ = _ from h]
      text_refl := fun _ => trivial
      contents_refl := fun _ => rfl
      alike := fun h n => congrArg (Table.find? · n) h
      declare := fun h name base => congrArg (ClassTable.declare · name base) h
      update := fun h name f => congrArg (ClassTable.update · name f) h
      near := SameView.toNear
      near_total := fun s =>
        ⟨{ s with desk := { classes := s.desk.classes, pages := default } }, ⟨⟨rfl, rfl, rfl, rfl, rfl⟩, rfl, rfl⟩⟩
      moves := SameView.moves
      step := fun h => .inr ⟨congrArg _ h.current, congrArg _ h.current, h.next⟩
      string := fun {s t} h => SameView.consume
        { h with }
      trace := fun h x => h.note x
      reportNot := fun {s t} h => by
        have same : s.current.describe = t.current.describe := congrArg _ h.current
        show (passes σ τ).Match Eq (print ("unexpected 'not' :   " ++ s.current.describe) s)
          (print ("unexpected 'not' :   " ++ t.current.describe) t)
        rw [same]
        exact (printed _).agree s t h
      level := fun h _ => { h with level := rfl }
      isTool := fun h _ => { h with isTool := rfl }
      classes := fun h _ => { h with classes := rfl }
      locals := fun h _ => { h with locals := rfl }
      inParens := fun h _ => { h with inParens := rfl }
      table := fun h _ _ hc => { h with table := hc }
      history := fun h _ _ => { h with }
      serve := fun h _ _ => (asked ..).agree _ _ h
      take := fun h => h.atDesk hv' hw' fun _ _ => trivial
      report := fun {s t a b} h hab _ _ dropped => by
        cases hab
        exact ((asked ..).bindEq fun _ => printed _).agree s t h
      awaits := fun h _ => (asked ..).agree _ _ h
      lost_next := fun _ => id
      lost_string := fun _ => id
      lost_same := fun l _ _ _ _ _ _ => l
      lost_ask := fun _ _ _ => id
      same := congrArg _
      remark := fun _ => asked _ _ }

end Read

open Read Target

/-- Two outcomes in which the readers went through the same script in the same way. -/
structure Outcome.ReadAlike (a : Outcome σ) (b : Outcome τ) : Prop where
  passed : a.passed = b.passed
  token : a.token = b.token
  readings : a.desk.readings = b.desk.readings
  classes : a.classes = b.classes
  table : a.desk.classes = b.desk.classes

theorem Outcome.readAlike_of_match {x : EStateM.Result Fault (Reader σ) Unit}
    {y : EStateM.Result Fault (Reader τ) Unit} (m : (passes σ τ).Match Eq x y)
    (hx : (ofResult x).fault = none) (hy : (ofResult y).fault = none) :
    (ofResult x).ReadAlike (ofResult y) := by
  cases x with
  | error e s => cases hx
  | ok a s =>
    cases y with
    | error e t => cases hy
    | ok b t =>
      rcases m with l | ⟨-, h⟩
      · exact l.elim
      · exact ⟨h.passed, congrArg some h.current, h.readings, h.classes, h.table⟩

/-- **Collecting reads as writing does.** If both passes over a script end well, they have passed
the same tokens in the same order, their readers printed the same, and they leave the same class
names and the same class table. -/
theorem collecting_reads_as_writing (s : Settings) (name text : String) (classes : ClassTable)
    (log : Array Event) (pages : Pages CSharp.State)
    (hc : (run Collect.writer name text ⟨classes, log, ()⟩).fault = none)
    (hw : (run (CSharp.writer s) name text ⟨classes, log, pages⟩).fault = none) :
    (run Collect.writer name text ⟨classes, log, ()⟩).ReadAlike
      (run (CSharp.writer s) name text ⟨classes, log, pages⟩) := by
  have L : (passes Unit (Pages CSharp.State)).Laws Collect.writer (CSharp.writer s) :=
    (passes_lockStep Collect.serve_discreet (.pure _) (CSharp.serve_discreet s) Page.takePage_discreet).laws
  cases hs : (scan (text ++ "\n")).lexemes with
  | nil =>
    rw [run_nil _ _ _ hs] at hc
    cases hc
  | cons first rest =>
    rw [run_cons _ _ _ hs] at hc hw ⊢
    rw [run_cons _ _ _ hs]
    refine Outcome.readAlike_of_match ((Paired.script L _ _ name).agree _ _ ?_) hc hw
    refine ⟨⟨⟨rfl, rfl, rfl, rfl, rfl⟩, rfl, rfl⟩, rfl, rfl, rfl, rfl, ?_⟩
    rw [readings_print, readings_print]
    rfl

/-- A property with a setter, a stray character and a line that cannot be read. -/
theorem collecting_reads_as_writing_setter :
    let text := "var x = [1]:\n\tset(v):\n\t\tx = v\n? oops"
    (run Collect.writer "S" text ⟨{}, #[], ()⟩).fault = none ∧
      (run (CSharp.writer {}) "S" text ⟨{}, #[], CSharp.start⟩).fault = none ∧
      (run Collect.writer "S" text ⟨{}, #[], ()⟩).ReadAlike
        (run (CSharp.writer {}) "S" text ⟨{}, #[], CSharp.start⟩) := by
  have hc : (run Collect.writer "S" "var x = [1]:\n\tset(v):\n\t\tx = v\n? oops"
      ⟨{}, #[], ()⟩).fault = none := by decide +kernel
  have hw : (run (CSharp.writer {}) "S" "var x = [1]:\n\tset(v):\n\t\tx = v\n? oops"
      ⟨{}, #[], CSharp.start⟩).fault = none := by decide +kernel
  exact ⟨hc, hw, collecting_reads_as_writing {} "S" _ {} #[] CSharp.start hc hw⟩

end GdScribe
