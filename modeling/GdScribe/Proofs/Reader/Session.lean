import GdScribe.Proofs.Reader.CourseScript

/-!
# The requests of a run

A run is a session at a desk, where its requests are served one after the other. What holds of every session holds of
every run that ends well, so a property of what a target writes is shown by induction on sessions, with one case for
each request.

* `sessionCourse`: the course of a reader that stays in a session.

Principal result: `run_session`.
-/

namespace GdScribe

variable {σ : Type}

/-- What requests make of a desk. The last request stands first. -/
inductive Session (w : Writer σ) (b : Desk σ) : List Request → Desk σ → Prop
  | start : Session w b [] b
  /-- A reader changes the class table and the log only. -/
  | read {qs : List Request} {d d' : Desk σ} (h : Session w b qs d) (hp : d'.pages = d.pages) : Session w b qs d'
  | takePage {qs : List Request} {d d' : Desk σ} {text : String} (h : Session w b qs d)
      (taken : w.takePage d = .ok text d') : Session w b qs d'
  | serve {q : Request} {qs : List Request} {d d' : Desk σ} (h : Session w b qs d)
      (hq : ∀ name base isTool isMain, q ≠ .defineClass name base isTool isMain) (served : w.serve q d = .ok () d') :
      Session w b (q :: qs) d'
  /-- A class is entered before it is defined. -/
  | opens {name base : String} {isTool isMain : Bool} {qs : List Request} {d d' d'' : Desk σ} (h : Session w b qs d)
      (enters : w.serve (.enterClass name) d = .ok () d')
      (defines : w.serve (.defineClass name base isTool isMain) d' = .ok () d'') :
      Session w b (.defineClass name base isTool isMain :: .enterClass name :: qs) d''

namespace Read

variable {α : Type} {w : Writer σ} {b : Desk σ} {s s' : Reader σ}

/-- The course of a reader that stays in a session. -/
def sessionCourse (w : Writer σ) (b : Desk σ) : Course σ where
  ok s s' := Session w b s.asked s.desk → Session w b s'.asked s'.desk
  fault _ _ _ := True

theorem sessionCourse_same (hp : s'.desk.pages = s.desk.pages) (ha : s'.asked = s.asked) :
    (sessionCourse w b).ok s s' :=
  fun h => ha ▸ h.read hp

theorem session_of_ok {x : ReadM σ α} (h : ∀ s a s', x s = .ok a s' → (sessionCourse w b).ok s s') :
    Keeps (sessionCourse w b) x := by
  intro s
  cases hx : x s with
  | ok a s' => exact h s a s' hx
  | error => trivial

theorem ask_session {q : Request} (hq : q.DefinesNone) : Keeps (sessionCourse w b) (ask w q) :=
  session_of_ok fun s a s' h hs => by
    obtain ⟨d, served, rfl⟩ := ask_eq_ok h
    exact hs.serve hq served

theorem sessionCourse_steps : (sessionCourse w b).Steps w where
  refl _ h := h
  trans h h' hs := h' (h hs)
  fail _ _ _ := trivial
  trans_fault _ _ := trivial
  next s := by
    unfold Reader.next
    split <;> exact sessionCourse_same rfl rfl
  log _ _ := sessionCourse_same rfl rfl
  strings _ _ := sessionCourse_same rfl rfl
  inParens _ _ := sessionCourse_same rfl rfl
  level _ _ := sessionCourse_same rfl rfl
  ask q hq := ask_session (by rintro _ _ _ _ rfl; cases hq)
  takePage := session_of_ok fun s a s' h hs => by
    obtain ⟨d, taken, rfl⟩ := atDesk_eq_ok h
    exact hs.takePage taken
  note _ _ _ := sessionCourse_same rfl rfl
  learn _ _ _ := sessionCourse_same rfl rfl
  use _ _ := sessionCourse_same rfl rfl

theorem startClass_session (name base : String) (isMain : Bool) :
    Keeps (sessionCourse w b) (startClass w name base isMain) := by
  refine session_of_ok fun s a s' h hs => ?_
  obtain ⟨_, _, noted, h⟩ := bind_eq_ok h
  cases noted
  obtain ⟨_, _, pushed, h⟩ := bind_eq_ok h
  cases pushed
  obtain ⟨_, s1, announced, h⟩ := bind_eq_ok h
  obtain ⟨_, _, hget, announced⟩ := bind_eq_ok announced
  cases hget
  obtain ⟨d, enters, rfl⟩ := ask_eq_ok announced
  obtain ⟨_, _, hget, h⟩ := bind_eq_ok h
  cases hget
  obtain ⟨d', defines, rfl⟩ := ask_eq_ok h
  refine .opens (hs.read ?_) enters defines
  rfl

theorem endClass_session : Keeps (sessionCourse w b) (endClass w) :=
  have H := sessionCourse_steps
  .get_bind fun _ => H.bind (ask_session nofun) fun _ => H.bind (H.note _ rfl) fun _ =>
    H.bind (fun _ => sessionCourse_same rfl rfl) fun _ => .get_bind fun _ => ask_session nofun

theorem sessionCourse_laws : (sessionCourse w b).ScriptLaws w where
  toClassLaws := Course.MemberSteps.laws { sessionCourse_steps with
      askMember := fun q hq => ask_session (by rintro _ _ _ _ rfl; cases hq)
      record := fun _ _ _ => sessionCourse_same rfl rfl
      putMethod := sessionCourse_steps.putMethod (fun _ _ => sessionCourse_same rfl rfl) fun _ => ask_session nofun
      innerClass := fun {inner} hi s _ => by
        have H := sessionCourse_steps (w := w) (b := b)
        have kept : Keeps (sessionCourse w b) (do advance; innerClass w inner) :=
          H.bind H.next fun _ => H.innerClass hi (fun _ _ => startClass_session _ _ _) endClass_session
        exact kept s }
  isTool _ _ := sessionCourse_same rfl rfl
  startScript _ _ := startClass_session _ _ _
  endScript := ask_session nofun

end Read

/-- **A run that ends well is a session.** -/
theorem run_session {w : Writer σ} {name text : String} {d : Desk σ} (ok : (run w name text d).fault = none) :
    Session w d (run w name text d).asked (run w name text d).desk := by
  obtain ⟨first, rest, s, -, hr, hs⟩ := run_ended ok
  have kept := Read.Keeps.script (Read.sessionCourse_laws (w := w) (b := d)) (Read.depth (rest.length + 1)) name
    (startOf text d first rest)
  rw [hs] at kept
  rw [hr]
  exact kept (Session.read .start rfl)

end GdScribe
