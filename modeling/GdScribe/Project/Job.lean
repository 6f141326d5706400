import GdScribe.Project.FileTree
import GdScribe.Project.Options
import GdScribe.Script.Run
import GdScribe.Target.CPlusPlus.Writer
import GdScribe.Target.CSharp.Writer

/-!
# Jobs

A job works on a file tree: it reads scripts, writes code, prints lines and lists programs that
are to be started.

* `Trouble`: why a job ends early, or why one of its scripts is given up.
* `Job`, `JobM`: the state of a job, and actions on it.
* `Draft`: the code of a script on its way to a file.
* `Report`: what a job leaves.
-/

namespace GdScribe

/-- Why a job ends early, or why one of its scripts is given up. -/
inductive Trouble where
  | usage (u : Usage)
  | targetLeftOut
  | emptyTarget
  | unknownTarget (name : String)
  | outputLeftOut
  | file (f : FileFault)
  | script (f : Fault)
  | noReader
  | noDraft
  | unfinishedDraft
  deriving DecidableEq, Repr, Inhabited

namespace FileFault

def kind : FileFault → String
  | .notFound => "FileNotFoundError"
  | .isFolder => "IsADirectoryError"
  | .notAFolder => "NotADirectoryError"
  | .alreadyThere => "FileExistsError"

end FileFault

namespace Trouble

def kind : Trouble → String
  | .usage _ => "SystemExit"
  | .targetLeftOut => "AttributeError"
  | .emptyTarget => "ValueError"
  | .unknownTarget _ => "ModuleNotFoundError"
  | .outputLeftOut | .unfinishedDraft => "TypeError"
  | .file f => f.kind
  | .script f => f.kind
  | .noReader | .noDraft => "UnboundLocalError"

def exitCode : Trouble → Nat
  | .usage .help => 0
  | .usage .wrong => 2
  | _ => 1

def message? : Trouble → Option String
  | .usage .wrong => some "2"
  | .usage .help => some "0"
  | .emptyTarget => some "Empty module name"
  | .script f => f.message?
  | _ => none

def describe (t : Trouble) : String :=
  Text.red (match t.message? with
    | some m => t.kind ++ " " ++ m
    | none => t.kind)

end Trouble

/-- The languages that scripts are converted to. -/
inductive Language where
  | cSharp
  | cPlusPlus
  deriving DecidableEq, Repr, Inhabited

def Language.named (name : String) : Except Trouble Language :=
  match Text.replaceAll name ".py" "" with
  | "CSharp" => .ok .cSharp
  | "Cpp" => .ok .cPlusPlus
  | "" => .error .emptyTarget
  | other => .error (.unknownTarget other)

/-- The code of a script on its way to a file; the header and the implementation are there
together or not at all. -/
inductive Code where
  | cSharp (text : String)
  | cPlusPlus (headerAndImplementation : Option (String × String))
  deriving DecidableEq, Repr, Inhabited

/-- The code of a script with the path it is to be saved under, without its extension. -/
structure Draft where
  path : String
  code : Code
  deriving DecidableEq, Repr, Inhabited

structure Job where
  tree : FileTree
  classes : ClassTable
  printed : List String := []
  /-- The programs to be started with their arguments, the last one first. -/
  commands : List (List String) := []
  log : Option Place := none
  token : Option Token := none
  draft : Option Draft := none
  deriving Inhabited

abbrev JobM := EStateM Trouble Job

namespace Job

def print (line : String) : JobM Unit := modify fun j => { j with printed := line :: j.printed }

def printAll (lines : List String) : JobM Unit :=
  modify fun j => { j with printed := lines.foldl (fun acc l => l :: acc) j.printed }

def command (words : List String) : JobM Unit :=
  modify fun j => { j with commands := words :: j.commands }

def ofFiles {α : Type} (r : Except FileFault α) : JobM α :=
  match r with
  | .ok a => return a
  | .error f => throw (.file f)

def onTree (f : FileTree → Except FileFault FileTree) : JobM Unit := do
  let tree ← ofFiles (f (← get).tree)
  modify fun j => { j with tree := tree }

def readFile (path : String) : JobM String := do ofFiles ((← get).tree.read path)

def writeFile (path text : String) : JobM Unit := onTree (·.write path text)

def logTo (path : String) : JobM Unit := do
  writeFile path ""
  let place ← ofFiles ((← get).tree.locate path)
  modify fun j => { j with log := some place }

def report (t : Trouble) : JobM Unit := do
  match (← get).token with
  | none => throw .noReader
  | some token =>
    print ("parser fail on " ++ token.describe)
    print t.describe

/-- Runs a target over a script. What it prints is printed, and its steps that `shown` selects. -/
def runScript {σ : Type} (w : Writer σ) (name text : String) (pages : σ)
    (shown : Event → Option String) (opening : List String := []) : JobM (Outcome σ) := do
  let o := run w name text { classes := (← get).classes, pages := pages }
  let lines := o.desk.log.toList.filterMap shown
  let early := ((scan (text ++ "\n")).lexemes.head?.map (·.notices.length)).getD lines.length
  printAll (lines.take early)
  if o.token.isSome then printAll opening
  printAll (lines.drop early)
  modify fun j => { j with classes := o.desk.classes, token := o.token.or j.token }
  return o

end Job

namespace Draft

/-- The path of a header without an extension of at most three letters. -/
def plainPath (path : String) : String :=
  if (path.toList.drop (path.length - 4)).contains '.' then
    String.intercalate "." (Text.split path ".").dropLast
  else path

def save (d : Draft) : JobM Draft :=
  match d.code with
  | .cSharp text => do
    let path := if Text.endsWith d.path ".cs" then d.path else d.path ++ ".cs"
    Job.writeFile path text
    return { d with path := path }
  | .cPlusPlus pages => do
    let path := plainPath d.path
    match pages with
    | some (header, implementation) =>
      Job.writeFile (path ++ ".hpp") header
      Job.writeFile (path ++ ".cpp") implementation
      return { d with path := path }
    | none =>
      Job.writeFile (path ++ ".hpp") ""
      throw .unfinishedDraft

end Draft

structure Report where
  tree : FileTree
  printed : List String
  commands : List (List String)
  trouble : Option Trouble
  deriving Inhabited

namespace Job

def linesText (lines : List String) : String := String.join (lines.map (· ++ "\n"))

def finish (j : Job) (trouble : Option Trouble) : Report :=
  let lines := j.printed.reverse
  match j.log with
  | none => ⟨j.tree, lines, j.commands.reverse, trouble⟩
  | some p =>
    let tree := if p.back = 0 then
        { j.tree with files := j.tree.files.put p.path (linesText lines) }
      else j.tree
    ⟨tree, [], j.commands.reverse, trouble⟩

def start (act : JobM Unit) (tree : FileTree) (classes : ClassTable) : Report :=
  match act { tree := tree, classes := classes } with
  | .ok () j => j.finish none
  | .error t j => j.finish (some t)

end Job

end GdScribe
