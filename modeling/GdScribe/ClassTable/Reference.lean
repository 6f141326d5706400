import GdScribe.ClassTable.Basic

/-!
# A notation for class tables

A class reference is a text of words. `Name<Base>` starts a class. The marks `.`, `()`, `=` and
`|` start its members, methods, constants and enumerators, whose entries are words `name:type`;
an entry without a type has that of the entry before it.

* The words of a name stand between underscores. A comma at the start of a name stands for a word
  that it has in common with the name before it: `get_blend_mode ,,time` has `get_blend_time`.
* In a type `+` stands for a blank, and an empty type for none.
* A member of type `~` is a signal.
* A constant of type `|E` is an integer constant and an enumerator of the enumeration `E`.
* Constants and enumerators are written in small letters, or as they are after a `^`.
* Other characters than those of words are passed over in an entry.
-/

namespace GdScribe.Reference

inductive Section where
  | members
  | methods
  | constants
  | enums
  deriving DecidableEq, Repr

/-- A class that is being read: the entries so far in reverse, the current table, and the last
name and type. -/
structure Draft where
  name : String
  base : Option String
  members : List (String × Ty) := []
  methods : List (String × Ty) := []
  constants : List (String × Ty) := []
  enums : List (String × Ty) := []
  current : Section := .members
  named : String := ""
  last : String := ""

def header (w : String) : Draft :=
  match Text.splitUpTo (Text.dropEnd w 1) "<" 1 with
  | [name, base] => { name := name, base := if base.isEmpty then none else some base }
  | _ => { name := w, base := none }

def typeOf (s : String) : Ty :=
  if s.isEmpty then none else some (String.ofList (s.toList.map fun c => if c = '+' then ' ' else c))

/-- The name that a written name stands for after the name `before`. -/
def nameAfter (before w : String) : String :=
  let shared := (w.toList.takeWhile (· = ',')).length
  "_".intercalate ((Text.split before "_").take shared ++ [Text.dropStart w shared])

def Draft.add (d : Draft) (name type : String) : Draft :=
  match d.current with
  | .members =>
    let t := if type = "~" then some (signalType name) else typeOf type
    { d with members := (name, t) :: d.members, last := type }
  | .methods => { d with methods := (name, typeOf type) :: d.methods, last := type }
  | .constants =>
    if Text.startsWith type "|" then
      { d with constants := (name, some "int") :: d.constants,
               enums := (name, some (enumType (Text.dropStart type 1))) :: d.enums, last := type }
    else { d with constants := (name, typeOf type) :: d.constants, last := type }
  | .enums => { d with enums := (name, some (enumType type)) :: d.enums, last := type }

def Section.spell (s : Section) (w : String) : String :=
  match s with
  | .members | .methods => w
  | .constants | .enums => if Text.startsWith w "^" then Text.dropStart w 1 else w.toUpper

/-- Whether a character may stand in a name or a type: one of ASCII that is no mark of blocks. -/
def isWordChar (c : Char) : Bool := c.toNat < 128 && !(['\n', '\x7b', '\x7d', ';', '(', ')'].contains c)

def Draft.read (d : Draft) (w : String) : Draft :=
  match w with
  | "." => { d with current := .members, last := "" }
  | "()" => { d with current := .methods, last := "" }
  | "=" => { d with current := .constants, last := "" }
  | "|" => { d with current := .enums, last := "" }
  | _ =>
    let w := String.ofList (w.toList.filter isWordChar)
    let (written, type) := match Text.splitUpTo w ":" 1 with
      | [written, type] => (written, type)
      | _ => (w, d.last)
    let name := nameAfter d.named (d.current.spell written)
    { d.add name type with named := name }

def Draft.finish (d : Draft) : String × ClassInfo :=
  (d.name,
    { base := d.base, members := ⟨d.members.reverse⟩, methods := ⟨d.methods.reverse⟩,
      constants := ⟨d.constants.reverse⟩, enums := ⟨d.enums.reverse⟩ })

/-- Reads one word: the finished classes in reverse, and the current one. -/
def step (acc : List (String × ClassInfo) × Option Draft) (w : String) :
    List (String × ClassInfo) × Option Draft :=
  if Text.endsWith w ">" then
    match acc.2 with
    | some d => (d.finish :: acc.1, some (header w))
    | none => (acc.1, some (header w))
  else (acc.1, acc.2.map (·.read w))

end GdScribe.Reference

namespace GdScribe.ClassTable

def ofReference (s : String) : ClassTable :=
  let words := Text.words s
  let (done, last) := words.foldl Reference.step ([], none)
  match last with
  | some d => ⟨(d.finish :: done).reverse⟩
  | none => ⟨done.reverse⟩

end GdScribe.ClassTable
