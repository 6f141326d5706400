import GdScribe.Script.Expr
import GdScribe.Script.Fault

/-!
# What the reader asks of a target

While the reader goes through a script it sends requests to a target, which keeps pages of
generated code. Reader and target share a `Desk`: the class table and the log of a run.

* `Request`: everything a target can be asked to do.
* `Writer`: a target.
* `Desk`, `DeskM`: the shared state, and actions on it that can fail.
-/

namespace GdScribe

/-- A line of output of a run. -/
inductive Event where
  | printed (line : String)
  | readStep (line : String)
  | writeStep (line : String)
  deriving DecidableEq, Repr, Inhabited

/-- What a run shares with its target, and the target's own pages. -/
structure Desk (σ : Type) where
  classes : ClassTable
  log : Array Event := #[]
  pages : σ
  deriving Inhabited

abbrev DeskM (σ : Type) := EStateM Fault (Desk σ)

namespace Desk

variable {σ : Type}

def print (d : Desk σ) (lines : List String) : Desk σ :=
  { d with log := lines.foldl (fun log l => log.push (.printed l)) d.log }

def note (d : Desk σ) (e : Event) : Desk σ := { d with log := d.log.push e }

end Desk

structure Property where
  type : String
  name : String
  init : Option Expr := none
  constant : Bool := false
  static : Bool := false
  onready : Bool := false
  deriving Inhabited

/-- An accessor of a property. -/
inductive Accessor where
  | getterMethod (method : String)
  | setterMethod (method : String)
  | getter (code : String)
  /-- Written code writes the property; the new value has a name in it. -/
  | setter (value code : String)
  deriving DecidableEq, Repr, Inhabited

namespace Accessor

def sets : Accessor → Bool
  | .setterMethod _ | .setter _ _ => true
  | _ => false

def isMethod : Accessor → Bool
  | .getterMethod _ | .setterMethod _ => true
  | _ => false

end Accessor

/-- A method with its written body. -/
structure Method where
  name : String
  params : Params := {}
  inits : Table Expr := {}
  returns : Ty := none
  code : String := ""
  static : Bool := false
  override : Bool := false
  deriving Inhabited

/-- What the reader asks of a target. -/
inductive Request where
  | put (text : String)
  | comment (text : String)
  | longComment (text : String)
  | indent
  | dedent
  | openPage
  | openScope
  | closeScope
  | enterClass (name : String)
  | defineClass (name base : String) (isTool isMain : Bool)
  | endClass (name : String)
  | endScript
  | enumeration (name : String) (values : Params) (inits : Table Expr)
  /-- An annotation with its arguments and the blank lines after it; `member` is the property that
  it belongs to. -/
  | marker (name args : String) (member : Option String) (spacing : String)
  | property (p : Property) (accessors : Bool)
  | accessor (p : Property) (a : Accessor)
  | endProperty (p : Property) (accessors : List Accessor)
  | localVariable (type name : String) (init : Option Expr)
  | method (m : Method)
  | signal (name : String) (params : Params)
  | assignment (value : Expr)
  | endStatement
  | expr (e : Expr)
  | arrayItem (item : Expr)
  | dictionaryItem (key value : Expr)
  | ifHead (condition : Expr)
  | elifHead (condition : Expr)
  | elseHead
  | whileHead (condition : Expr)
  | forHead (name type : String) (sequence : Expr)
  | breakStatement
  | continueStatement
  | returnHead (value : Expr)
  | await (object signal : String)
  /-- Starts a choice between cases, by a jump or by a chain of comparisons; the subject follows. -/
  | matchHead (byJump : Bool)
  | matchSubject (byJump : Bool)
  /-- A case with its pattern, condition and written body; `comparison` is the start of a
  comparison with the subject, and no pattern stands for all other values. -/
  | matchCase (byJump : Bool) (comparison : String) (pattern guard : Option Expr) (code : String)

/-- A target: it serves requests, and gives back the text of its last page. -/
structure Writer (σ : Type) where
  serve : Request → DeskM σ Unit
  takePage : DeskM σ String

end GdScribe
