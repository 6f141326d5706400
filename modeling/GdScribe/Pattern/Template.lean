import GdScribe.Pattern.Match
import GdScribe.Pattern.Notation

/-!
# Replacing pieces of a text

A template says what stands in the place of a piece: texts, and pieces that groups have noted. It
is written with a backslash before the number of a group, or before a letter that stands for a
character.

* `Template.ofText`: reads a template for a pattern.
* `Matcher.replaceAll`: replaces all the pieces at which a pattern is found.
-/

namespace GdScribe.Pattern

inductive TemplatePart where
  | text (s : String)
  /-- The piece of a group, which is empty if none was noted; the whole piece is number zero. -/
  | piece (number : Nat)
  deriving DecidableEq, Repr, Inhabited

namespace TemplatePart

def ofGroup (m : Matcher) (number : Nat) : NotationM TemplatePart :=
  if m.groups < number then throw .unknownGroup else return .piece number

def bracketed (m : Matcher) : NotationM TemplatePart := do
  if !(← accept '<') then throw .badName
  let name ← textUpTo '>'
  if Text.isIdentifier name then
    match m.names.lookup name with
    | some number => ofGroup m number
    | none => throw (.unknownName name)
  else match groupNumber? name with
    | some number => ofGroup m number
    | none => throw .badName

def digits (m : Matcher) (c : Char) : NotationM TemplatePart := do
  if c = '0' then
    let n := numberIn 8 (← takeChars 2 isOctal)
    return .text (String.singleton (Char.ofNat n))
  let second ← takeChars 1 Char.isDigit
  let third ← if (c :: second).all isOctal && !second.isEmpty then takeChars 1 isOctal else pure []
  if third.isEmpty then ofGroup m (numberIn 10 (c :: second))
  else return .text (String.singleton (Char.ofNat (← octalCode (c :: second ++ third))))

def escape (m : Matcher) (c : Char) : NotationM TemplatePart := do
  if c = 'g' then bracketed m
  else if c.isDigit then digits m c
  else match (('b', 8) :: plainEscapes).lookup c with
    | some n => return .text (String.singleton (Char.ofNat n))
    | none =>
      if c.isAlpha then throw .badEscape else return .text ("\\" ++ String.singleton c)

/-- The parts that are still to be read, after those read before, the last one first. The number
bounds the parts. -/
def readAll (m : Matcher) : Nat → List TemplatePart → NotationM (List TemplatePart)
  | 0, done => return done.reverse
  | n + 1, done => do
    match ← next with
    | none => return done.reverse
    | some mark =>
      let part ← if mark.escaped then escape m mark.char
        else pure (.text (String.singleton mark.char))
      readAll m n (part :: done)

/-- The text that a part stands for, with what is found at a piece. -/
def render (text : Array Char) (piece : Piece) : TemplatePart → String
  | .text s => s
  | .piece 0 => String.ofList (text.extract piece.start piece.stop).toList
  | .piece number =>
    match piece.notes.find? (·.number == number) with
    | some note => String.ofList (text.extract note.start note.stop).toList
    | none => ""

end TemplatePart

abbrev Template := List TemplatePart

def Template.ofText (m : Matcher) (text : String) : Except Fault Template :=
  match Mark.ofChars? text.toList with
  | none => .error .badEscape
  | some marks =>
    match TemplatePart.readAll m (marks.length + 1) [] { marks := marks } with
    | .ok t _ => .ok t
    | .error f _ => .error f

def Template.render (t : Template) (text : Array Char) (piece : Piece) : String :=
  String.join (t.map (·.render text piece))

def filledIn (t : Template) (text : Array Char) : Nat → List Piece → String
  | pos, [] => String.ofList (text.extract pos text.size).toList
  | pos, piece :: rest =>
    String.ofList (text.extract pos piece.start).toList ++ t.render text piece ++
      filledIn t text piece.stop rest

def Matcher.replaceAll (m : Matcher) (t : Template) (s : String) : String :=
  let text := s.toList.toArray
  filledIn t text 0 (m.pattern.pieces text)

def replaceWritten (pattern template s : String) : Except Fault String := do
  let m ← Matcher.ofText pattern
  let t ← Template.ofText m template
  return m.replaceAll t s

end GdScribe.Pattern
