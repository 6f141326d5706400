import GdScribe.Pattern.Basic

/-!
# Looking for a pattern

A pattern is looked for from a position on. What comes after it in a larger pattern is a function
that says whether the search can be finished from where the pattern ends; if not, the next way to
find the pattern is tried.

* `Spot`: a position with the pieces that were noted on the way.
* `Pattern.run`: the first way through a pattern that can be finished.
* `Pattern.matchAt?`, `Pattern.find?`: the piece from a position on, and the first one that comes.
* `Pattern.pieces`: the pieces of a text one after another.
-/

namespace GdScribe.Pattern

/-- A noted piece: its number, where it starts and where it stops. -/
structure Note where
  number : Nat
  start : Nat
  stop : Nat
  deriving DecidableEq, Repr, Inhabited

/-- A position with the pieces that were noted on the way, and the groups that were entered with
the positions of their starts, the last ones first. -/
structure Spot where
  pos : Nat
  notes : List Note := []
  entered : List (Nat × Nat) := []
  deriving DecidableEq, Repr, Inhabited

def Spot.note? (s : Spot) (number : Nat) : Option Note := s.notes.find? (·.number == number)

/-- Whether a piece was noted under a number. If the group has been entered again, its last piece
counts only if it did not stop before the new start. -/
def Spot.isNoted (s : Spot) (number : Nat) : Bool :=
  (s.note? number).any fun note => (s.entered.lookup number).all (· ≤ note.stop)

/-- What is done at the end of a pattern: the spot where everything ends, if it can. -/
abbrev Finish := Spot → Option Spot

abbrev Search := Spot → Finish → Option Spot

/-- Whether a row is over: it has all the pieces it can have, or its last piece was empty. -/
def rowIsOver (most : Option Nat) (last : Option Nat) (s : Spot) : Bool :=
  most == some 0 || last == some s.pos

/-- A row of pieces, as many as possible; `last` is where the last one that was not needed started,
and the first number bounds the pieces. -/
def mostRows (one : Search) (finish : Finish) :
    Nat → Nat → Option Nat → Option Nat → Spot → Option Spot
  | 0, _, _, _, s => finish s
  | n + 1, least + 1, most, last, s =>
    one s (mostRows one finish n least (most.map (· - 1)) last)
  | n + 1, 0, most, last, s =>
    if rowIsOver most last s then finish s
    else (one s (mostRows one finish n 0 (most.map (· - 1)) (some s.pos))).or (finish s)

def leastRows (one : Search) (finish : Finish) :
    Nat → Nat → Option Nat → Option Nat → Spot → Option Spot
  | 0, _, _, _, s => finish s
  | n + 1, least + 1, most, last, s =>
    one s (leastRows one finish n least (most.map (· - 1)) last)
  | n + 1, 0, most, last, s =>
    match finish s with
    | some t => some t
    | none =>
      if rowIsOver most last s then none
      else one s (leastRows one finish n 0 (most.map (· - 1)) (some s.pos))

/-- The end of a row of pieces, as many as possible, each of which is the first one found. -/
def firmRows (one : Finish) : Nat → Nat → Option Nat → Option Nat → Spot → Option Spot
  | 0, _, _, _, s => some s
  | n + 1, least + 1, most, last, s =>
    (one s).bind (firmRows one n least (most.map (· - 1)) last)
  | n + 1, 0, most, last, s =>
    if rowIsOver most last s then some s
    else match one s with
      | some t => firmRows one n 0 (most.map (· - 1)) (some s.pos) t
      | none => some s

def sameChar (o : Options) (a b : Char) : Bool :=
  if o.ignoreCase then lowered o.ascii a == lowered o.ascii b else a == b

def standsAgain (text : Array Char) (o : Options) (note : Note) (pos : Nat) : Bool :=
  (List.range (note.stop - note.start)).all fun i =>
    match text[note.start + i]?, text[pos + i]? with
    | some a, some b => sameChar o a b
    | _, _ => false

end GdScribe.Pattern

namespace GdScribe.Pattern

/-- The spot where everything ends on the first way through a pattern that can be finished. -/
def run (text : Array Char) : Pattern → Search
  | .nothing, s, finish => finish s
  | .char set, s, finish =>
    if (text[s.pos]?).any set.mem then finish { s with pos := s.pos + 1 } else none
  | .place a, s, finish => if a.holds text s.pos then finish s else none
  | .both p q, s, finish => run text p s fun t => run text q t finish
  | .either p q, s, finish => (run text p s finish).or (run text q s finish)
  | .group number p, s, finish =>
    run text p { s with entered := (number, s.pos) :: s.entered } fun t =>
      finish { t with notes := ⟨number, s.pos, t.pos⟩ :: t.notes }
  | .again number o, s, finish =>
    match s.note? number with
    | some note =>
      if standsAgain text o note s.pos then
        finish { s with pos := s.pos + (note.stop - note.start) }
      else none
    | none => none
  | .rows p least most m, s, finish =>
    let bound := least + (text.size - s.pos) + 2
    match m with
    | .most => mostRows (run text p) finish bound least most none s
    | .least => leastRows (run text p) finish bound least most none s
    | .firm => (firmRows (fun t => run text p t some) bound least most none s).bind finish
  | .alone p, s, finish => (run text p s some).bind finish
  | .ahead p wanted, s, finish =>
    match run text p s some with
    | some t => if wanted then finish { t with pos := s.pos } else none
    | none => if wanted then none else finish s
  | .behind width p wanted, s, finish =>
    let found := if s.pos < width then none else run text p { s with pos := s.pos - width } some
    match found with
    | some t => if wanted then finish { t with pos := s.pos } else none
    | none => if wanted then none else finish s
  | .ifNoted number p q, s, finish =>
    if s.isNoted number then run text p s finish else run text q s finish

/-- A piece of a text at which a pattern was found, with the pieces noted in it, the last one
first. -/
structure Piece where
  start : Nat
  stop : Nat
  notes : List Note := []
  deriving DecidableEq, Repr, Inhabited

/-- The piece at which a pattern is found from a position on, if it is; an empty one counts only
if `empty` says so. -/
def matchAt? (p : Pattern) (text : Array Char) (pos : Nat) (empty : Bool) : Option Piece :=
  (run text p { pos := pos } fun t => if empty || t.pos ≠ pos then some t else none).map fun t =>
    ⟨pos, t.pos, t.notes⟩

/-- The first piece from a position on, which is at most so many characters further; an empty
piece at the position itself counts only if `empty` says so. -/
def findWithin? (p : Pattern) (text : Array Char) : Nat → Nat → Bool → Option Piece
  | 0, pos, empty => p.matchAt? text pos empty
  | n + 1, pos, empty => (p.matchAt? text pos empty).or (findWithin? p text n (pos + 1) true)

def find? (p : Pattern) (text : Array Char) (pos : Nat) (empty : Bool) : Option Piece :=
  p.findWithin? text (text.size - pos) pos empty

/-- The pieces from a position on, none inside another one; the number bounds how many they are.
No two empty pieces stand at one position. -/
def piecesFrom (p : Pattern) (text : Array Char) : Nat → Nat → Bool → List Piece
  | 0, _, _ => []
  | n + 1, pos, empty =>
    match p.find? text pos empty with
    | some piece => piece :: piecesFrom p text n piece.stop (piece.start != piece.stop)
    | none => []

def pieces (p : Pattern) (text : Array Char) : List Piece :=
  p.piecesFrom text (2 * text.size + 2) 0 true

end GdScribe.Pattern
