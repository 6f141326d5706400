import GdScribe.ClassTable.Builtin
import GdScribe.Project.Extension
import GdScribe.Target.Collect

/-!
# Converting scripts

The command line converts scripts in two rounds: the first one collects the types of all
scripts, the second one writes code.

* A script that fails in the first round is reported, and then no code is written.
* A script that fails in the second round is reported, and whatever code there is gets saved.
* `convert`: runs a command line on a file tree.
-/

namespace GdScribe.Conversion

/-- The scripts that paths stand for: all scripts below a folder, or the path itself. -/
def scripts (tree : FileTree) (inputs : List String) : List String :=
  Text.distinctSorted (inputs.flatMap fun input =>
    let path := Path.normal input
    if tree.hasFolder path then (tree.below path).filter (Path.hasExtension · ".gd") else [path])

def quotedList (texts : List String) : String := String.intercalate ", " (texts.map Text.quoted)

def overview (args scripts : List String) : List String :=
  ["args: [" ++ quotedList ("main.py" :: args) ++ "]", "files to process :",
    if scripts.isEmpty then "set()" else "\x7b" ++ quotedList scripts ++ "\x7d"]

def shown (readerSteps targetSteps : Bool) : Event → Option String
  | .printed line => some line
  | .readStep line => if readerSteps then some line else none
  | .writeStep line => if targetSteps then some line else none

def resolve (path : String) : JobM String := do
  let text ← Job.readFile path
  let o ← Job.runScript Collect.writer (Path.scriptName path) text () (shown false false)
  match o.fault with
  | some f => throw (.script f)
  | none => return o.classes.headD ""

/-- Collects the types of scripts, and gives the names of their classes unless one failed. -/
def resolveAll (paths : List String) : JobM (Option (List String)) := do
  let results ← paths.mapM fun path =>
    tryCatch (some <$> resolve path) fun t => do
      Job.report t
      return none
  if results.all (·.isSome) then return some (results.filterMap id).eraseDups else return none

/-- The path under which the code of a script is saved, without an extension: the folder's path is
replaced wherever it occurs, and no mark of a script is left. -/
def savePath (output path : String) : String :=
  let folder := Path.dir path
  let moved :=
    if folder.isEmpty then Path.join output path else Text.replaceAll path folder output
  Text.replaceAll moved ".gd" ""

def tokenLines (text : String) : List String :=
  let lines := (Scan.tokens text).map fun t =>
    "line " ++ toString t.line ++ ": " ++ t.kind.name ++ " <" ++ t.value ++ ">"
  Scan.notices text ++ [String.intercalate "\n" lines]

def setDraft (d : Draft) : JobM Unit := modify fun j => { j with draft := some d }

def draft (o : Options) (language : Language) (path saveAs : String) : JobM Unit := do
  Job.onTree (·.makeFolders (Path.dir saveAs))
  let text ← Job.readFile path
  let name := Path.scriptName path
  let settings : Target.Settings :=
    { useFloats := o.useFloats, valueTypes := ClassTable.builtinValueTypes }
  let shown := shown (o.verbose || o.readerVerbose) (o.verbose || o.targetVerbose)
  let opening := if o.printTokens then tokenLines text else []
  let fault ← match language with
    | .cSharp => do
      let r ← Job.runScript (CSharp.writer settings) name text CSharp.start shown opening
      setDraft ⟨saveAs, .cSharp r.desk.pages.own.result⟩
      pure r.fault
    | .cPlusPlus => do
      let r ← Job.runScript (CPlusPlus.writer settings) name text (CPlusPlus.start name) shown
        opening
      let pages := (r.desk.pages.own.header, r.desk.pages.own.implementation)
      setDraft ⟨saveAs, .cPlusPlus (if r.fault.isNone then some pages else none)⟩
      pure r.fault
  match fault with
  | some f => throw (.script f)
  | none => return

def saveDraft : JobM Unit := do
  match (← get).draft with
  | none => throw .noDraft
  | some d => setDraft (← d.save)

def convertScript (o : Options) (language : Language) (output : String) (n i : Nat)
    (path : String) : JobM Unit := do
  let saveAs := savePath output path
  tryCatch (draft o language path saveAs) Job.report
  if !o.noSave then saveDraft
  Job.print ("Converted " ++ Path.short path ++ " to " ++ Path.short saveAs ++
    " (" ++ toString i ++ "/" ++ toString n ++ ")")

/-- Converts scripts one after another, the first of which is the `i`th of `n`. -/
def convertScripts (o : Options) (language : Language) (output : String) (n : Nat) :
    Nat → List String → JobM Unit
  | _, [] => return
  | i, path :: rest => do
    convertScript o language output n i path
    convertScripts o language output n (i + 1) rest

def orStop {α : Type} (r : Except Trouble α) : JobM α :=
  match r with
  | .ok a => return a
  | .error t => throw t

def valueOf (value : Option String) (t : Trouble) : JobM String :=
  match value with
  | some v => return v
  | none => throw t

/-- The work that options ask for; `args` are the words they were read from. -/
def work (o : Options) (args : List String) : JobM Unit := do
  if !o.logFile.isEmpty then Job.logTo o.logFile
  let language ← orStop (Language.named (← valueOf o.target .targetLeftOut))
  let output := Path.normal (← valueOf o.output .outputLeftOut)
  let paths := scripts (← get).tree o.inputs
  if o.verbose then Job.printAll (overview args paths)
  let classes ← if o.noResolving then pure (some []) else resolveAll paths
  match classes with
  | none => return
  | some classes =>
    if !o.extension.isEmpty then Extension.create output o.extension classes
    convertScripts o language output paths.length 1 paths

end GdScribe.Conversion

namespace GdScribe

def convert (args : List String) (tree : FileTree) : Report :=
  Job.start (do
    match Options.ofArgs args with
    | .error u => throw (.usage u)
    | .ok o => Conversion.work o args) tree ClassTable.builtin

end GdScribe
