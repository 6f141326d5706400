import GdScribe.Proofs.Reader.CourseScript
import GdScribe.Proofs.Target.Manner

/-!
# The result of a C# script

The text of a finished script is set by the last action of all, which cannot fail. So a run that fails
leaves the text as it was.

* `CSharp.unfinished`: the manner of actions that leave the text of the finished script alone.

Principal result: `CSharp.result_of_fault`.
-/

namespace GdScribe

namespace CSharp

open Read

/-- What is known of a script may change, but for its result. -/
def SameResult (o o' : State) : Prop := o'.result = o.result

def unfinished : PageManner State SameResult :=
  .ofPages (.always (fun d d' => SameResult d.pages.own d'.pages.own) (fun _ => rfl) fun h h' => h'.trans h)
    (fun _ => rfl) (fun _ _ h => h) fun _ _ => rfl

variable (z : Target.Settings) {α : Type} {r : String}

theorem unfinished_keeps {act : SharpM α} (h : unfinished.Allows act) (s : Reader (Pages State)) :
    (endState (atDesk act s)).desk.pages.own.result = s.desk.pages.own.result := by
  have same := h s.desk
  unfold atDesk
  cases hd : act s.desk <;> rw [hd] at same <;> exact same

theorem serve_keeps {q : Request} (hq : q ≠ .endScript) {s : Reader (Pages State)}
    (h : s.desk.pages.own.result = r) : (endState (atDesk (serve z q) s)).desk.pages.own.result = r := by
  have served := serve_alike .eq unfinished.likeness z (fun _ _ h => h) (.same q) (sameAccessors_refl q)
    (fun _ _ _ h => h) (fun he => absurd he hq) fun _ => trivial
  exact (unfinished_keeps served s).trans h

theorem result_invariant :
    OuterInvariant (fun s : Reader (Pages State) => s.desk.pages.own.result = r) (writer z) where
  next s h := by
    unfold Reader.next
    split <;> exact h
  serve _ _ hq h := serve_keeps z (fun he => by rw [he] at hq; cases hq) h
  takePage s h := (unfinished_keeps (show unfinished.Allows Page.takePage from fun _ => rfl) s).trans h
  note _ _ _ h := h
  learn _ _ _ h := h
  use _ _ h := h
  serveOuter _ _ hq h := serve_keeps z hq h
  record _ _ h := h
  enter _ _ _ _ h := h

theorem endScript_keeps {s : Reader (Pages State)} (h : s.desk.pages.own.result = r) :
    Goes (ask (writer z) .endScript) s (fun _ _ => True) fun s' => s'.desk.pages.own.result = r := by
  have page : unfinished.Allows (lastPage z) :=
    lastPage_alike .eq unfinished.likeness z (fun _ _ h => h) (fun _ _ h => h) trivial
  have same := page s.desk
  show Goes (atDesk (endScript z)) { s with asked := .endScript :: s.asked } _ _
  unfold Goes atDesk
  rw [endScript_eq, bind_apply]
  cases hp : lastPage z s.desk with
  | ok page d => trivial
  | error e d =>
    rw [hp] at same
    exact same.trans h

/-- **A run that fails has no result.** -/
theorem result_of_fault {name text : String} {d : Desk (Pages State)} {f : Fault}
    (h : (run (writer z) name text d).fault = some f) :
    (run (writer z) name text d).desk.pages.own.result = d.pages.own.result := by
  cases hl : (scan (text ++ "\n")).lexemes with
  | nil =>
    unfold run
    simp only [hl]
    rfl
  | cons first rest =>
    rw [run_cons _ name d hl] at h ⊢
    let I (s : Reader (Pages State)) : Prop := s.desk.pages.own.result = d.pages.own.result
    have H : OuterInvariant I (writer z) := result_invariant z
    have goes (n : Nat) (s : Reader (Pages State)) (hs : I s) :
        Goes (script (writer z) (rules (writer z) n) name) s (fun _ _ => True) I :=
      (keeping_goes (H.header name) hs).bind fun _ _ hs =>
        (keeping_goes (Keeps.scriptBody H.inClass.laws n) hs).bind fun _ _ hs =>
          endScript_keeps z hs
    have ended := goes (depth (rest.length + 1)) (startOf text d first rest) rfl
    unfold Goes at ended
    generalize script (writer z) _ name _ = result at h ended ⊢
    cases result with
    | ok a s => cases h
    | error e s => exact ended

end CSharp

end GdScribe
