import GdScribe.Proofs.Blocks.Builtin
import GdScribe.Proofs.Blocks.CPlusPlus
import GdScribe.Proofs.Blocks.CSharp
import GdScribe.Proofs.Blocks.Scripts

/-!
# Both targets keep the blocks of a script

A script made of functions, inner classes, and statements with blocks is read to its end without a
fault and without a word on the terminal. In the code, braces close in turn, and each statement stands
in its place: below the braces of its classes and blocks in C#, and below those of its function and
blocks in C++, where functions stand outside their classes.

Main statement: `run_keeps_blocks`.
-/

namespace GdScribe

open Target

/-- **Both targets keep the blocks of a script**, wherever blank lines stand in it. Its own name and
those of its classes are new, and the types that are known say nothing about blocks, as those of the
built-in classes do not (`ClassTable.builtin_tame`). -/
theorem run_keeps_blocks (s : Settings) {t : ClassTable} {name : String} (script : Source .members)
    {lines : List String} (hname : Scan.IsIdentifier name)
    (hproper : ∀ r ∈ script.rows 0 0, r.line.Proper)
    (hdistinct : (name :: classNames (script.rows 0 0)).Nodup)
    (hnew : ∀ c ∈ name :: classNames (script.rows 0 0), t.contains c = false) (ht : t.Tame)
    (hlines : lines.filter (fun l => !isBlankLine l) = (script.rows 0 0).map Row.text) :
    let text := String.intercalate "\n" lines
    let statements := (script.rows 0 0).filter Row.speaks
    let sharp := run (CSharp.writer s) name text ⟨t, #[], CSharp.start⟩
    let plus := run (CPlusPlus.writer s) name text ⟨t, #[], CPlusPlus.start name⟩
    (sharp.fault = none ∧ sharp.desk.printedLines = [] ∧ CSharp.Kept s statements sharp.desk.pages.own.result) ∧
    (plus.fault = none ∧ plus.desk.printedLines = [] ∧
      CPlusPlus.Kept s statements plus.desk.pages.own.header plus.desk.pages.own.implementation) := by
  have welcome {σ : Type} (pages : σ) : Welcome name (script.rows 0 0) (⟨t, #[], pages⟩ : Desk σ) :=
    ⟨hname, script.legal, hproper, ht, hnew, hdistinct, rfl⟩
  exact ⟨(CSharp.keeper s).run_done (welcome _) (CSharp.start_held s) hlines,
    (CPlusPlus.keeper s).run_done (welcome _) (CPlusPlus.start_held s hname.typeText t) hlines⟩

/-- An inner class with a loop and branches, and a function after it. -/
def watchScript : Source .members :=
  .inner "Watch"
    (.function "turn"
      (.more (.loop "busy" (.last (.choice "ready" (.last (.simple (.call "halt")))
          (.alternative "late" (.last (.simple .stop)) (.otherwise (.last (.simple .skip)))))))
        (.last (.simple (.result "7")))) .noMember)
    (.function "visit"
      (.more (.each "item" "items" (.last (.simple .pass))) (.last (.simple (.call "finish")))) .noMember)

/-- The lines of the script, with blank lines in between. -/
def watchLines : List String :=
  ["class Watch:", "", "\tfunc turn():", "\t\twhile busy:", "\t\t\tif ready:", "\t\t\t\thalt()",
    "\t\t\telif late:", "\t\t\t\tbreak", "\t\t\telse:", "\t\t\t\tcontinue", "  ", "\t\treturn 7",
    "func visit():", "\tfor item in items:", "\t\tpass", "\tfinish()", ""]

theorem run_keeps_blocks_watch :
    let t := ClassTable.declare {} "Node" "Object"
    let text := String.intercalate "\n" watchLines
    let statements : List Row :=
      [⟨4, 1, .simple (.call "halt")⟩, ⟨4, 1, .simple .stop⟩, ⟨4, 1, .simple .skip⟩,
        ⟨2, 1, .simple (.result "7")⟩, ⟨1, 0, .simple (.call "finish")⟩]
    let sharp := run (CSharp.writer {}) "Main" text ⟨t, #[], CSharp.start⟩
    let plus := run (CPlusPlus.writer {}) "Main" text ⟨t, #[], CPlusPlus.start "Main"⟩
    (sharp.fault = none ∧ sharp.desk.printedLines = [] ∧ CSharp.Kept {} statements sharp.desk.pages.own.result) ∧
    (plus.fault = none ∧ plus.desk.printedLines = [] ∧
      CPlusPlus.Kept {} statements plus.desk.pages.own.header plus.desk.pages.own.implementation) := by
  have none : ClassTable.Tame {} := fun _ => .new none
  exact run_keeps_blocks {} watchScript (by decide) (by decide) (by decide) (by decide)
    (none.declare rfl "Object") (by decide)

end GdScribe
