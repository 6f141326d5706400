import GdScribe.Target.CPlusPlus.Library
import GdScribe.Target.Dialect

/-!
# Class drafts in C++

A class is declared in the header and defined in the implementation. While a script is read, the
declaration of each class and what its bindings need are collected in a draft.

* `ClassDraft`: the declaration so far, and what is to be bound.
* `State`: the drafts, the classes that need a header, and the results.
* `put`: writes to the page; line ends outside all scopes belong to the declaration.
-/

namespace GdScribe.CPlusPlus

open Target

/-- An annotation with the property that it belongs to. -/
structure BoundMarker where
  member : Option String
  name : String
  args : String
  deriving DecidableEq, Repr, Inhabited

/-- A class that is being written. -/
structure ClassDraft where
  name : String
  text : String := ""
  isProtected : Bool := false
  methodArgs : Table (List String) := {}
  signals : Table Params := {}
  /-- The assignments that wait for the `_ready` method. -/
  onready : List String := []
  /-- The definitions of static variables, for the end of the class. -/
  statics : List String := []
  markers : List BoundMarker := []
  getters : Table String := {}
  setters : Table String := {}
  deriving Inhabited

namespace ClassDraft

def add (c : ClassDraft) (text : String) : ClassDraft := { c with text := c.text ++ text }

def toProtected (c : ClassDraft) : ClassDraft :=
  if c.isProtected then c else { c.add "\nprotected:\n" with isProtected := true }

def toPublic (c : ClassDraft) : ClassDraft :=
  if c.isProtected then { c.add "\npublic:\n" with isProtected := false } else c

end ClassDraft

/-- What the target knows besides its pages. -/
structure State where
  scriptName : String
  className : String := ""
  drafts : Table ClassDraft := {}
  used : List String := []
  declarations : String := ""
  header : String := ""
  implementation : String := ""
  deriving Inhabited

abbrev PlusM := PageM State

def State.draft (o : State) : ClassDraft := (o.drafts.find? o.className).getD { name := o.className }

def State.redraft (o : State) (f : ClassDraft → ClassDraft) : State :=
  { o with drafts := o.drafts.put o.className (f o.draft) }

def State.use (o : State) (names : List String) : State :=
  { o with used := names.foldl (fun us n => if us.contains n then us else us ++ [n]) o.used }

def draft : PlusM ClassDraft := return (← Page.own).draft

def redraft (f : ClassDraft → ClassDraft) : PlusM Unit := Page.modifyOwn (·.redraft f)

/-- Writes outside all scopes: to the current class's declaration, or before the first class. -/
def writeOutside (text : String) : PlusM Unit :=
  Page.modifyOwn fun o =>
    if o.drafts.isEmpty then { o with declarations := o.declarations ++ text }
    else o.redraft (·.add text)

def put (text : String) : PlusM Unit := do
  let level ← Page.level
  let shown := Page.indented level text
  if text.toList.all (· == '\n') && level ≤ 0 then writeOutside shown else Page.write shown
  Page.traceText shown

def comment (text : String) : PlusM Unit := do
  if 0 < (← Page.level) then put text else writeOutside text

def openScope : PlusM Unit := do
  Page.trace ("UpScope " ++ toString (← Page.level))
  put "\n\x7b"
  Page.shift 1

def closeScope : PlusM Unit := do
  let level ← Page.level
  Page.trace ("DownScope " ++ toString level)
  if level ≠ 0 then
    Page.shift (-1)
    put "\n\x7d"

/-- The text of a type; the classes that it mentions need a header. -/
def typeText (s : Settings) (type : Ty) : PlusM String := do
  let uses := typeUses s (← Page.classes) type
  Page.modifyOwn (·.use uses)
  return typeName s type

def paramText (s : Settings) (p : String × Ty) : PlusM String :=
  return (← typeText s p.2) ++ " " ++ p.1

end GdScribe.CPlusPlus
