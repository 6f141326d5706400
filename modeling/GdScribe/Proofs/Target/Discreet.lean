import GdScribe.Proofs.Target.Manner

/-!
# Targets that leave the reader's own alone

A target shares a desk with its reader. An action of a target is discreet if it leaves the class
table as it is and adds nothing to the log but its own steps, whether it ends well or not.

* `Discreet`: actions that change neither the class table nor the readings.

Principal results: `Collect.serve_discreet` and `CSharp.serve_discreet`.
-/

namespace GdScribe

open Read (endState)

variable {σ τ α : Type}

/-- Whether an event comes from the reader. -/
def Event.isReading : Event → Bool
  | .writeStep _ => false
  | _ => true

/-- What the reader itself put into the log, in order. -/
def Desk.readings (d : Desk σ) : List Event := d.log.toList.filter Event.isReading

/-- An action that leaves the class table and the readings as they are. -/
def Discreet (x : DeskM σ α) : Prop :=
  ∀ d, (endState (x d)).classes = d.classes ∧ (endState (x d)).readings = d.readings

theorem Desk.readings_writeStep (d : Desk σ) (line : String) : (d.note (.writeStep line)).readings = d.readings := by
  show ((d.log.push (.writeStep line)).toList.filter Event.isReading) = _
  simp [Event.isReading, readings]

/-- The manner of discreet actions, which may end in any fault. -/
def Manner.discreet (σ : Type) : Manner σ :=
  .always (fun d d' => d'.classes = d.classes ∧ d'.readings = d.readings) (fun _ => ⟨rfl, rfl⟩)
    fun h h' => ⟨h'.1.trans h.1, h'.2.trans h.2⟩

def PageManner.discreet (τ : Type) : PageManner τ Freely :=
  .ofPages (.discreet _) (fun _ => trivial) (fun _ _ _ => ⟨rfl, rfl⟩) fun d line =>
    ⟨rfl, d.readings_writeStep line⟩

theorem Manner.Allows.discreet {x : DeskM σ α} (h : (discreet σ).Allows x) : Discreet x :=
  h.endState fun _ _ _ h => h

theorem Discreet.pure (a : α) : Discreet (pure a : DeskM σ α) := fun _ => ⟨rfl, rfl⟩

theorem Page.takePage_discreet : Discreet (takePage : PageM τ String) := fun _ => ⟨rfl, rfl⟩

/-- **Collecting is discreet**: the target only looks at expressions. -/
theorem Collect.serve_discreet (q : Request) : Discreet (serve q) := (serve_allowed (.discreet _) q).discreet

/-- **Writing C# is discreet**: the target looks at the class table and never changes it. -/
theorem CSharp.serve_discreet (s : Target.Settings) (q : Request) : Discreet (serve s q) :=
  (serve_allowed (.discreet _) s q (fun _ _ _ _ => ⟨rfl, rfl⟩) fun _ => trivial).discreet

end GdScribe
