import GdScribe.Project.Conversion
import GdScribe.Proofs.Project.Files
import GdScribe.Proofs.Target.Results

/-!
# Converting one script after another

A script that fails is reported, and what there is of its code is saved all the same. In C# that is an
empty file. In C++ it is an empty header, after which the job itself fails.

* `Conversion.convertScript_apply`: converting a script is saving what comes of it.

Principal result: `Conversion.convertScripts_of_fault`.
-/

namespace GdScribe

open List
open EStateM (Result)

/-! ## Single actions of a job -/

namespace Job

variable {α : Type} {j j' : Job} {T : FileTree} {path text : String}

theorem get_bind_apply (f : Job → JobM α) (j : Job) : ((get : JobM Job) >>= f) j = f j j := rfl

variable {x : JobM α} {h : Trouble → JobM α} {f : FileTree → Except FileFault FileTree}

theorem catch_ok {a : α} (hx : x j = .ok a j') : tryCatch x h j = .ok a j' := by
  show EStateM.tryCatch x h j = _
  unfold EStateM.tryCatch
  rw [hx]

theorem catch_error {t : Trouble} (hx : x j = .error t j') : tryCatch x h j = h t j' := by
  show EStateM.tryCatch x h j = _
  unfold EStateM.tryCatch
  rw [hx]
  rfl

theorem onTree_ok (h : f j.tree = .ok T) : onTree f j = .ok () { j with tree := T } := by
  unfold onTree
  rw [get_bind_apply, Read.bind_ok (show ofFiles (f j.tree) j = .ok T j by rw [h]; rfl)]
  rfl

theorem onTree_error {e : FileFault} (h : f j.tree = .error e) : onTree f j = .error (.file e) j := by
  unfold onTree
  rw [get_bind_apply, h]
  rfl

theorem readFile_ok (h : j.tree.read path = .ok text) : readFile path j = .ok text j := by
  unfold readFile
  rw [get_bind_apply, h]
  rfl

theorem report_apply (t : Trouble) {token : Token} (h : j.token = some token) :
    report t j = .ok () { j with printed := [t.describe, "parser fail on " ++ token.describe] ++ j.printed } := by
  cases j
  cases h
  rfl

/-- The lines that a run prints, with the ones that open them once there is a token. -/
def scriptLines {σ : Type} (o : Outcome σ) (text : String) (shown : Event → Option String)
    (opening : List String) : List String :=
  let lines := o.desk.log.toList.filterMap shown
  let early := ((scan (text ++ "\n")).lexemes.head?.map (·.notices.length)).getD lines.length
  lines.take early ++ (if o.token.isSome then opening else []) ++ lines.drop early

theorem printAll_apply (lines : List String) (j : Job) :
    printAll lines j = .ok () { j with printed := lines.reverse ++ j.printed } := by
  have turned : ∀ (lines acc : List String), lines.foldl (fun acc l => l :: acc) acc = lines.reverse ++ acc := by
    intro lines
    induction lines with
    | nil => intro acc; rfl
    | cons l ls ih => intro acc; rw [foldl_cons]; simp
  show Result.ok () { j with printed := lines.foldl (fun acc l => l :: acc) j.printed } = _
  rw [turned]

theorem runScript_apply {σ : Type} (w : Writer σ) (name text : String) (pages : σ)
    (shown : Event → Option String) (opening : List String) (j : Job) :
    let o := run w name text { classes := j.classes, pages := pages }
    runScript w name text pages shown opening j = .ok o { j with
      printed := (scriptLines o text shown opening).reverse ++ j.printed
      classes := o.desk.classes
      token := o.token.or j.token } := by
  intro o
  unfold runScript
  rw [get_bind_apply]
  dsimp only
  rw [Read.bind_ok (printAll_apply ..)]
  by_cases h : o.token.isSome
  · rw [if_pos h, Read.bind_ok (printAll_apply ..), Read.bind_ok (printAll_apply ..)]
    simp only [scriptLines, if_pos h, reverse_append, append_assoc]
    rfl
  · rw [if_neg h, Read.bind_ok (printAll_apply ..)]
    simp only [scriptLines, if_neg h, reverse_append, append_assoc, append_nil]
    rfl

end Job

namespace Conversion

/-! ## Converting one script -/

/-- What comes of a script that is converted. -/
structure Made where
  fault : Option Fault
  code : Code
  classes : ClassTable
  token : Option Token
  lines : List String

/-- What comes of a script with some classes known. -/
def made (o : Options) (language : Language) (path text : String) (classes : ClassTable) : Made :=
  let name := Path.scriptName path
  let settings : Target.Settings := { useFloats := o.useFloats, valueTypes := ClassTable.builtinValueTypes }
  let shown := shown (o.verbose || o.readerVerbose) (o.verbose || o.targetVerbose)
  let opening := if o.printTokens then tokenLines text else []
  match language with
  | .cSharp =>
    let r := run (CSharp.writer settings) name text { classes := classes, pages := CSharp.start }
    ⟨r.fault, .cSharp r.desk.pages.own.result, r.desk.classes, r.token, Job.scriptLines r text shown opening⟩
  | .cPlusPlus =>
    let r := run (CPlusPlus.writer settings) name text { classes := classes, pages := CPlusPlus.start name }
    let pages := (r.desk.pages.own.header, r.desk.pages.own.implementation)
    ⟨r.fault, .cPlusPlus (if r.fault.isNone then some pages else none), r.desk.classes, r.token,
      Job.scriptLines r text shown opening⟩

/-- The job with a draft of what was made. -/
def Made.job (m : Made) (saveAs : String) (T : FileTree) (j : Job) : Job :=
  { j with
    tree := T
    classes := m.classes
    token := m.token.or j.token
    printed := m.lines.reverse ++ j.printed
    draft := some ⟨saveAs, m.code⟩ }

variable {o : Options} {language : Language} {output path saveAs text : String} {c : ClassTable} {j : Job}
  {T : FileTree}

theorem draft_apply (folder : j.tree.makeFolders (Path.dir saveAs) = .ok T) (read : T.read path = .ok text) :
    draft o language path saveAs j = match (made o language path text j.classes).fault with
      | some f => .error (.script f) ((made o language path text j.classes).job saveAs T j)
      | none => .ok () ((made o language path text j.classes).job saveAs T j) := by
  have folders : Job.onTree (·.makeFolders (Path.dir saveAs)) j = .ok () { j with tree := T } := Job.onTree_ok folder
  have opened : Job.readFile path { j with tree := T } = .ok text { j with tree := T } := Job.readFile_ok read
  unfold draft made
  rw [Read.bind_ok folders, Read.bind_ok opened]
  cases language with
  | cSharp
  | cPlusPlus =>
    dsimp only
    rw [Read.bind_ok (Job.runScript_apply ..)]
    generalize run _ _ _ _ = r
    cases r.fault <;> rfl

/-- The report of a script that failed, the last line first. -/
def Made.report (m : Made) : List String :=
  match m.fault, m.token with
  | some f, some t => [(Trouble.script f).describe, "parser fail on " ++ t.describe]
  | _, _ => []

/-- The job when a draft was made, whether the script failed or not. -/
def Made.reported (m : Made) (saveAs : String) (T : FileTree) (j : Job) : Job :=
  { m.job saveAs T j with printed := m.report ++ (m.job saveAs T j).printed }

/-- The line that tells that a script was converted. -/
def convertedLine (output : String) (n i : Nat) (path : String) : String :=
  "Converted " ++ Path.short path ++ " to " ++ Path.short (savePath output path) ++ " (" ++ toString i ++
    "/" ++ toString n ++ ")"

/-- **Converting a script that can be read**: whether it fails or not, there is a draft that is saved. -/
theorem convertScript_apply (saves : o.noSave = false) (n i : Nat)
    (folder : j.tree.makeFolders (Path.dir (savePath output path)) = .ok T) (read : T.read path = .ok text)
    (token : (made o language path text j.classes).token.isSome) :
    convertScript o language output n i path j = (saveDraft >>= fun _ => Job.print (convertedLine output n i path))
        ((made o language path text j.classes).reported (savePath output path) T j) := by
  obtain ⟨t, ht⟩ := Option.isSome_iff_exists.mp token
  have drafted : tryCatch (draft o language path (savePath output path)) Job.report j =
      .ok () ((made o language path text j.classes).reported (savePath output path) T j) := by
    have h : draft o language path (savePath output path) j = _ := draft_apply folder read
    generalize made o language path text j.classes = m at h ht ⊢
    unfold Made.reported Made.report
    cases hf : m.fault with
    | none =>
      rw [hf] at h
      exact Job.catch_ok h
    | some f =>
      rw [hf] at h
      have inView : (m.job (savePath output path) T j).token = some t := by
        rw [Made.job, ht]
        rfl
      rw [Job.catch_error h, Job.report_apply _ inView, ht]
  unfold convertScript
  rw [Read.bind_ok drafted, saves]
  rfl

/-! ## Saving -/

/-- The files of a script, by the path that it is saved under. -/
def outputs (language : Language) (saveAs : String) : List String :=
  match language with
  | .cSharp => [if Text.endsWith saveAs ".cs" then saveAs else saveAs ++ ".cs"]
  | .cPlusPlus => [Draft.plainPath saveAs ++ ".hpp", Draft.plainPath saveAs ++ ".cpp"]

/-- The texts of a script, in the order of its files. -/
def texts : Code → List String
  | .cSharp text => [text]
  | .cPlusPlus (some (header, implementation)) => [header, implementation]
  | .cPlusPlus none => [""]

/-- Whether a code is a whole script in a language. -/
inductive Whole : Language → Code → Prop
  | cSharp (text : String) : Whole .cSharp (.cSharp text)
  | cPlusPlus (header implementation : String) : Whole .cPlusPlus (.cPlusPlus (some (header, implementation)))

/-- Writes files one after another. -/
def written (T : FileTree) (files : List (String × String)) : Except FileFault FileTree :=
  files.foldlM (fun T f => T.write f.1 f.2) T

theorem saveDraft_apply {d : Draft} (h : j.draft = some d) : saveDraft j = (d.save >>= setDraft) j := by
  unfold saveDraft
  rw [Job.get_bind_apply, h]

/-- **A whole script is saved** to its files. -/
theorem saveDraft_whole {code : Code} (drafted : j.draft = some ⟨saveAs, code⟩) (whole : Whole language code)
    (h : written j.tree ((outputs language saveAs).zip (texts code)) = .ok T) (line : String) :
    ∃ j', (saveDraft >>= fun _ => Job.print line) j = .ok () j' ∧ j'.tree = T ∧ j'.classes = j.classes := by
  suffices saved : ∃ d, Draft.save ⟨saveAs, code⟩ j = .ok d { j with tree := T } by
    obtain ⟨d, hd⟩ := saved
    refine ⟨{ j with tree := T, draft := some d, printed := line :: j.printed }, ?_, rfl, rfl⟩
    rw [Read.bind_apply, saveDraft_apply drafted, Read.bind_apply, hd]
    rfl
  have write {path text : String} {j : Job} {T : FileTree} (h : j.tree.write path text = .ok T) :
      Job.writeFile path text j = .ok () { j with tree := T } := Job.onTree_ok h
  cases whole <;>
    simp only [outputs, texts, written, zip_cons_cons, zip_nil_left, foldlM_cons, foldlM_nil, bind_pure] at h
  case cSharp text => exact ⟨⟨_, _⟩, Read.bind_ok (write h)⟩
  case cPlusPlus header implementation =>
    cases h1 : j.tree.write (Draft.plainPath saveAs ++ ".hpp") header with
    | error e =>
      rw [h1] at h
      cases h
    | ok T1 =>
      rw [h1] at h
      have h2 : T1.write (Draft.plainPath saveAs ++ ".cpp") implementation = .ok T := h
      have second := write (j := { j with tree := T1 }) h2
      exact ⟨⟨_, _⟩, (Read.bind_ok (write h1)).trans (Read.bind_ok second)⟩

/-! ## Jobs on trees that differ in one file -/

/-- The same result with another tree. -/
def withTree {α : Type} (T : FileTree) : Result Trouble Job α → Result Trouble Job α
  | .ok a j => .ok a { j with tree := T }
  | .error t j => .error t { j with tree := T }

/-- An action does the same on a tree that differs in one file, and leaves such trees. -/
def Meets {α : Type} (k : String) (o : Place) (act : JobM α) (j : Job) (U : FileTree) : Prop :=
  ∃ U', act { j with tree := U } = withTree U' (act j) ∧ (Read.endState (act j)).tree.Beside k o U'

namespace Meets

variable {α β : Type} {k : String} {p : Place} {U : FileTree} {act : JobM α}

theorem bind {f : α → JobM β} (h : Meets k p act j U)
    (hf : ∀ a j' U', j'.tree.Beside k p U' → Meets k p (f a) j' U') : Meets k p (act >>= f) j U := by
  obtain ⟨U', same, beside⟩ := h
  unfold Meets
  rw [Read.bind_apply, Read.bind_apply, same]
  cases ha : act j with
  | ok a j' =>
    rw [ha] at beside
    exact hf a j' U' beside
  | error t j' =>
    rw [ha] at beside
    exact ⟨U', rfl, beside⟩

theorem catching {handle : Trouble → JobM α} (h : Meets k p act j U)
    (hh : ∀ t j' U', j'.tree.Beside k p U' → Meets k p (handle t) j' U') : Meets k p (tryCatch act handle) j U := by
  obtain ⟨U', same, beside⟩ := h
  unfold Meets
  cases ha : act j with
  | ok a j' =>
    rw [ha] at same beside
    rw [Job.catch_ok ha, Job.catch_ok same]
    exact ⟨U', rfl, beside⟩
  | error t j' =>
    rw [ha] at same beside
    rw [Job.catch_error ha, Job.catch_error same]
    exact hh t j' U' beside

theorem onTree {f : FileTree → Except FileFault FileTree} (h : FileTree.Besides k p (f j.tree) (f U))
    (beside : j.tree.Beside k p U) : Meets k p (Job.onTree f) j U := by
  unfold Meets
  rcases h with ⟨e, left, right⟩ | ⟨T', U', left, right, h⟩
  · rw [Job.onTree_error left, Job.onTree_error right]
    exact ⟨U, rfl, beside⟩
  · rw [Job.onTree_ok left, Job.onTree_ok right]
    exact ⟨U', rfl, h⟩

variable (h : j.tree.Beside k p U)

include h

theorem readFile (other : (p.along (Path.parts path)).path ≠ k) : Meets k p (Job.readFile path) j U := by
  unfold Meets Job.readFile
  rw [Job.get_bind_apply, Job.get_bind_apply, h.read other]
  cases j.tree.read path <;> exact ⟨U, rfl, h⟩

theorem report (t : Trouble) : Meets k p (Job.report t) j U := by
  cases j with
  | mk tree classes printed commands log token draft => cases token <;> exact ⟨U, rfl, h⟩

theorem runScript {σ : Type} (w : Writer σ) (name text : String) (pages : σ) (shown : Event → Option String)
    (opening : List String) : Meets k p (Job.runScript w name text pages shown opening) j U := by
  unfold Meets
  rw [Job.runScript_apply, Job.runScript_apply]
  exact ⟨U, rfl, h⟩

theorem draft (other : (p.along (Path.parts path)).path ≠ k) :
    Meets k p (draft o language path saveAs) j U := by
  have thrown (f : Option Fault) {j : Job} {U : FileTree} (h : j.tree.Beside k p U) :
      Meets k p (match f with | some f => throw (.script f) | none => pure () : JobM Unit) j U := by
    cases f <;> exact ⟨U, rfl, h⟩
  refine (onTree (h.makeFolders _) h).bind fun _ _ _ h => (readFile h other).bind fun text _ _ h => ?_
  cases language <;> exact (runScript h ..).bind fun _ _ U h => bind ⟨U, rfl, h⟩ fun _ _ _ h => thrown _ h

theorem save (d : Draft) : Meets k p d.save j U := by
  unfold Draft.save
  have writeFile (path text : String) {j : Job} {U : FileTree} (h : j.tree.Beside k p U) :
      Meets k p (Job.writeFile path text) j U := onTree (h.write path text) h
  cases d.code with
  | cSharp text => exact (writeFile _ _ h).bind fun _ _ U h => ⟨U, rfl, h⟩
  | cPlusPlus pages =>
    cases pages with
    | none => exact (writeFile _ _ h).bind fun _ _ U h => ⟨U, rfl, h⟩
    | some pages =>
      exact (writeFile _ _ h).bind fun _ _ _ h => (writeFile _ _ h).bind fun _ _ U h => ⟨U, rfl, h⟩

theorem saveDraft : Meets k p saveDraft j U := by
  cases hd : j.draft with
  | none =>
    have none {j : Job} (hd : j.draft = none) : Conversion.saveDraft j = .error .noDraft j := by
      unfold Conversion.saveDraft
      rw [Job.get_bind_apply, hd]
      rfl
    exact ⟨U, by rw [none hd, none (j := { j with tree := U }) hd]; rfl, by rw [none hd]; exact h⟩
  | some d =>
    have saved : Meets k p (d.save >>= setDraft) j U := (save h d).bind fun _ _ U h => ⟨U, rfl, h⟩
    unfold Meets
    rwa [saveDraft_apply hd, saveDraft_apply (j := { j with tree := U }) hd]

theorem convertScript (n i : Nat) (other : (p.along (Path.parts path)).path ≠ k) :
    Meets k p (convertScript o language output n i path) j U := by
  refine ((draft h other).catching fun t _ _ h => report h t).bind fun _ _ U h => ?_
  have last {j : Job} {U : FileTree} (h : j.tree.Beside k p U) (line : String) : Meets k p (Job.print line) j U :=
    ⟨U, rfl, h⟩
  split
  · exact (saveDraft h).bind fun _ _ _ h => last h _
  · exact last h _

omit h in
/-- **Other scripts are converted alike**, whatever is in a file. -/
theorem convertScripts {paths : List String} (n i : Nat) (h : j.tree.Beside k p U)
    (other : ∀ path ∈ paths, (p.along (Path.parts path)).path ≠ k) :
    Meets k p (Conversion.convertScripts o language output n i paths) j U := by
  induction paths generalizing i j U with
  | nil => exact ⟨U, rfl, h⟩
  | cons path rest ih =>
    rw [Conversion.convertScripts]
    exact (convertScript h n i (other path mem_cons_self)).bind fun _ _ _ h =>
      ih (i + 1) h fun q hq => other q (mem_cons_of_mem _ hq)

end Meets

/-! ## A script that fails -/

/-- What is saved of a script without code. -/
def noCode : Language → Code
  | .cSharp => .cSharp ""
  | .cPlusPlus => .cPlusPlus none

theorem code_of_fault {f : Fault} (h : (made o language path text c).fault = some f) :
    (made o language path text c).code = noCode language := by
  cases language with
  | cSharp => exact congrArg Code.cSharp (CSharp.result_of_fault _ h)
  | cPlusPlus =>
    unfold made at h ⊢
    dsimp only at h ⊢
    rw [h]
    rfl

theorem whole_of_no_fault (h : (made o language path text c).fault = none) :
    Whole language (made o language path text c).code := by
  cases language with
  | cSharp => exact .cSharp _
  | cPlusPlus =>
    unfold made at h ⊢
    dsimp only at h ⊢
    rw [h]
    exact .cPlusPlus ..

theorem token_isSome (h : (made o language path text c).fault ≠ some .noToken) :
    (made o language path text c).token.isSome := by
  have ran {σ : Type} (w : Writer σ) (name : String) (d : Desk σ) (h : (run w name text d).fault ≠ some .noToken) :
      (run w name text d).token.isSome := by
    unfold run at h ⊢
    dsimp only at h ⊢
    split at h
    · exact absurd rfl h
    · unfold Outcome.ofResult
      split <;> rfl
  cases language with
  | cSharp => exact ran _ _ _ h
  | cPlusPlus => exact ran _ _ _ h

theorem convertScripts_append {before rest : List String} {n i : Nat} {j1 : Job}
    (h : convertScripts o language output n i before j = .ok () j1) :
    convertScripts o language output n i (before ++ rest) j =
      convertScripts o language output n (i + before.length) rest j1 := by
  induction before generalizing i j with
  | nil =>
    cases h
    rfl
  | cons path before ih =>
    obtain ⟨_, j', h1, h2⟩ := Read.bind_eq_ok h
    have count : i + (before.length + 1) = i + 1 + before.length := by omega
    rw [cons_append, convertScripts, Read.bind_ok h1, ih h2, length_cons, count]

/-- In C++ nothing goes on after a script without code, of which only an empty header is saved. -/
theorem save_noCode_cPlusPlus {k : Unit → JobM Unit} (h : j.draft = some ⟨saveAs, noCode .cPlusPlus⟩)
    (written : j.tree.write (Draft.plainPath saveAs ++ ".hpp") "" = .ok T) :
    (saveDraft >>= k) j = .error .unfinishedDraft { j with tree := T } := by
  have saved : Job.writeFile (Draft.plainPath saveAs ++ ".hpp") "" j = .ok () { j with tree := T } :=
    Job.onTree_ok written
  have failed : Draft.save ⟨saveAs, noCode .cPlusPlus⟩ j = .error .unfinishedDraft { j with tree := T } :=
    Read.bind_ok saved
  rw [Read.bind_apply, saveDraft_apply h, Read.bind_apply, failed]

theorem written_noCode {first : String} {T' : FileTree} (file : (outputs .cSharp saveAs).head? = some first)
    (h : T.write first "" = .ok T') : written T ((outputs .cSharp saveAs).zip (texts (noCode .cSharp))) = .ok T' := by
  simp only [outputs, head?_cons, Option.some.injEq] at file
  subst file
  exact (bind_pure _).trans h

/-- **A script that fails** leaves its first file empty and every other file as it was. In C++ the other
scripts are not converted then. In C# they are, with the classes that the failed script has left, and alike
whatever its file holds, so long as none of them is read from there. -/
theorem convertScripts_of_fault {before after : List String} {n i : Nat} {j₁ : Job} {f : Fault} {first : String}
    {x : Place} (saves : o.noSave = false) (reached : convertScripts o language output n i before j = .ok () j₁)
    (folders : j₁.tree.makeFolders (Path.dir (savePath output path)) = .ok T) (read : T.read path = .ok text)
    (fails : (made o language path text j₁.classes).fault = some f) (token : f ≠ .noToken)
    (file : (outputs language (savePath output path)).head? = some first)
    (place : T.locate first = .ok x) (free : T.isFolder x = false) (zero : x.back = 0) :
    ∃ j₂ : Job, j₂.classes = (made o language path text j₁.classes).classes ∧
      j₂.tree.files = j₁.tree.files.put x.path "" ∧
      (language = .cPlusPlus →
        convertScripts o language output n i (before ++ path :: after) j = .error .unfinishedDraft j₂) ∧
      (language = .cSharp → let rest := convertScripts o language output n (i + before.length + 1) after
        convertScripts o language output n i (before ++ path :: after) j = rest j₂ ∧
          ((∀ q ∈ after, (T.here.along (Path.parts q)).path ≠ x.path) →
            ∀ U, j₂.tree.Beside x.path T.here U → Meets x.path T.here rest j₂ U)) := by
  obtain ⟨files, -⟩ := FileTree.files_makeFolders folders
  have written := FileTree.write_free place free zero ""
  have step : convertScript o language output n (i + before.length) path j₁ = _ :=
    convertScript_apply saves n _ folders read (token_isSome (by simpa [fails] using token))
  have code := code_of_fault fails
  generalize made o language path text j₁.classes = m at step code ⊢
  have drafted : (m.reported (savePath output path) T j₁).draft = some ⟨savePath output path, noCode language⟩ := by
    rw [← code]
    rfl
  rw [convertScripts_append reached, convertScripts, Read.bind_apply, step]
  rw [files] at written
  cases language with
  | cPlusPlus =>
    simp only [outputs, head?_cons, Option.some.injEq] at file
    subst file
    rw [save_noCode_cPlusPlus drafted written]
    exact ⟨_, rfl, rfl, fun _ => rfl, fun h => absurd h (by decide)⟩
  | cSharp =>
    obtain ⟨j₂, saved, tree, classes⟩ := saveDraft_whole drafted (show Whole .cSharp (noCode .cSharp) from .cSharp "")
      (written_noCode file written) (convertedLine output n (i + before.length) path)
    rw [saved]
    exact ⟨j₂, classes, by rw [tree], fun h => absurd h (by decide), fun _ => ⟨rfl, fun other _ beside =>
      Meets.convertScripts n _ beside other⟩⟩

/-- Two scripts, the first of which fails, and a file from before. -/
def redone (file : String) : Job where
  tree := { files := ⟨[("in/a.gd", "var x : Array[void]\n"), ("in/b.gd", "var y = 1\n"), (file, "old")]⟩ }
  classes := {}

theorem convertScripts_of_fault_redone : ∃ j₂ : Job,
    j₂.tree.files = (redone "out/a.cs").tree.files.put "out/a.cs" "" ∧
      convertScripts {} .cSharp "out" 2 1 ["in/a.gd", "in/b.gd"] (redone "out/a.cs") =
        convertScripts {} .cSharp "out" 2 2 ["in/b.gd"] j₂ := by
  have reached : convertScripts {} .cSharp "out" 2 1 [] (redone "out/a.cs") = .ok () (redone "out/a.cs") := rfl
  have folder : Path.dir (savePath "out" "in/a.gd") = "out" := by decide +kernel
  have folders : (redone "out/a.cs").tree.makeFolders (Path.dir (savePath "out" "in/a.gd")) =
      .ok (redone "out/a.cs").tree := by
    rw [folder]
    rfl
  have read : (redone "out/a.cs").tree.read "in/a.gd" = .ok "var x : Array[void]\n" := by decide +kernel
  have fails : (made {} .cSharp "in/a.gd" "var x : Array[void]\n" (redone "out/a.cs").classes).fault =
      some .untypedArray := by decide +kernel
  have file : (outputs .cSharp (savePath "out" "in/a.gd")).head? = some "out/a.cs" := by decide +kernel
  have place : (redone "out/a.cs").tree.locate "out/a.cs" = .ok ⟨0, ["out", "a.cs"]⟩ := by decide +kernel
  obtain ⟨j₂, -, files, -, same⟩ := convertScripts_of_fault rfl reached folders read fails (by decide) file place
    (by decide +kernel) rfl
  exact ⟨j₂, files, (same rfl).1⟩

/-- In C++ an old header is lost, and the other script is not converted. -/
theorem header_lost_of_fault :
    let files := (Read.endState (convertScripts {} .cPlusPlus "out" 2 1 ["in/a.gd", "in/b.gd"]
      (redone "out/a.hpp"))).tree.files
    files.find? "out/a.hpp" = some "" ∧ files.find? "out/b.hpp" = none := by decide +kernel

end Conversion

end GdScribe
