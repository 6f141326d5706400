import GdScribe.Text.Case

/-!
# Patterns

A pattern describes pieces of a text.

* `Pattern.Chars`: the characters that can stand in one place.
* `Pattern.Anchor`: places between characters.
* `Pattern`: characters, places, and what is made of them. Alternatives are tried in order, and a
  group notes the piece it was found at.
* `Pattern.Width`: how long the pieces are that a pattern can be found at.
-/

namespace GdScribe.Pattern

/-- How a part of a pattern is meant. -/
structure Options where
  ignoreCase : Bool := false
  lines : Bool := false
  anyChar : Bool := false
  spaced : Bool := false
  ascii : Bool := false
  deriving DecidableEq, Repr, Inhabited

/-- Classes of characters that have a name. -/
inductive CharKind where
  | digit
  | blank
  | word
  deriving DecidableEq, Repr, Inhabited

def CharKind.mem (k : CharKind) (ascii : Bool) (c : Char) : Bool :=
  if ascii && 128 ≤ c.toNat then false
  else match k with
    | .digit => CharClass.isDecimal c
    | .blank => if ascii then " \t\n\r\x0b\x0c".toList.contains c else CharClass.isBlank c
    | .word => CharClass.isWord c

/-- A member of a set: a run of code points, or a kind of characters or all others. -/
inductive Member where
  | run (first last : Nat)
  | kind (k : CharKind) (others : Bool)
  deriving DecidableEq, Repr, Inhabited

/-- The characters that can stand in one place: the members, or all others if they are negated. -/
structure Chars where
  members : List Member
  negated : Bool := false
  ignoreCase : Bool := false
  ascii : Bool := false
  deriving DecidableEq, Repr, Inhabited

/-- The forms of a character that differ in case only, itself among them. -/
def caseForms (ascii : Bool) (c : Char) : List Char :=
  if ascii then [c, c.toLower, c.toUpper] else Text.caseForms c

def lowered (ascii : Bool) (c : Char) : Char := if ascii then c.toLower else Text.lowerChar c

def Chars.mem (s : Chars) (c : Char) : Bool :=
  let forms := if s.ignoreCase then caseForms s.ascii c else [c]
  let shown := if s.ignoreCase then lowered s.ascii c else c
  let isMember := s.members.any fun
    | .run first last => forms.any fun f => first ≤ f.toNat && f.toNat ≤ last
    | .kind k others => k.mem s.ascii shown != others
  isMember != s.negated

/-- Places between characters. -/
inductive Anchor where
  | textStart
  | lineStart
  | textEnd
  /-- The end of the text, or the place before the line feed that ends it. -/
  | lastEnd
  | lineEnd
  /-- The edge of a word, or a place that is none: inside or outside of words. -/
  | wordEdge (ascii inside : Bool)
  deriving DecidableEq, Repr, Inhabited

/-- Whether a position of a text is such a place. In an empty text no place is an edge of a word,
and none is no edge either. -/
def Anchor.holds (a : Anchor) (text : Array Char) (pos : Nat) : Bool :=
  let before := if pos = 0 then none else text[pos - 1]?
  match a with
  | .textStart => pos == 0
  | .lineStart => pos == 0 || before == some '\n'
  | .textEnd => pos == text.size
  | .lastEnd => pos == text.size || (pos + 1 == text.size && text[pos]? == some '\n')
  | .lineEnd => pos == text.size || text[pos]? == some '\n'
  | .wordEdge ascii inside =>
    let isWord := fun (c : Option Char) => c.any (CharKind.word.mem ascii)
    text.size != 0 && ((isWord before != isWord text[pos]?) != inside)

/-- How a repetition is looked for: as often as possible, as seldom as possible, or as often as
possible without ever giving anything back. -/
inductive Manner where
  | most
  | least
  | firm
  deriving DecidableEq, Repr, Inhabited

end GdScribe.Pattern

namespace GdScribe

inductive Pattern where
  | nothing
  | char (s : Pattern.Chars)
  | place (a : Pattern.Anchor)
  | both (p q : Pattern)
  | either (p q : Pattern)
  | group (number : Nat) (p : Pattern)
  | again (number : Nat) (o : Pattern.Options)
  | rows (p : Pattern) (least : Nat) (most : Option Nat) (m : Pattern.Manner)
  | alone (p : Pattern)
  | ahead (p : Pattern) (wanted : Bool)
  /-- Whether the pattern is found so many characters before, or is not. -/
  | behind (width : Nat) (p : Pattern) (wanted : Bool)
  /-- The first pattern if a piece was noted under a number, the second one if not. -/
  | ifNoted (number : Nat) (p q : Pattern)
  deriving DecidableEq, Repr, Inhabited

end GdScribe

namespace GdScribe.Pattern

/-- The number of characters of the pieces of a pattern, at least and at most. -/
structure Width where
  least : Nat := 0
  most : Option Nat := some 0
  deriving DecidableEq, Repr, Inhabited

namespace Width

def one : Width := ⟨1, some 1⟩

def add (a b : Width) : Width :=
  ⟨a.least + b.least, a.most.bind fun m => b.most.map (m + ·)⟩

def either (a b : Width) : Width :=
  ⟨min a.least b.least, a.most.bind fun m => b.most.map (max m)⟩

def rows (w : Width) (least : Nat) (most : Option Nat) : Width :=
  let longest := match w.most, most with
    | some 0, _ | _, some 0 => some 0
    | some m, some n => some (m * n)
    | _, _ => none
  ⟨w.least * least, longest⟩

def fixed? (w : Width) : Option Nat := if w.most = some w.least then some w.least else none

end Width

end GdScribe.Pattern
