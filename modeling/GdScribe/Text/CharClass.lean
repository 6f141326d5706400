import GdScribe.Text.CharData
import GdScribe.Text.Edit
import GdScribe.Text.Packed

/-!
# Character classes

Classes of characters over all of Unicode. A class has a direct test for the first 128 code
points and a table of ranges for the others.

* `CharSet`, `CharSet.ofText`: ranges of code points and their notation.
* `isWord`, `isDecimal`, `isBlank`, `isPrintable`, …: the classes.
* `decimalValue`: the value of a decimal digit of any script.
-/

namespace GdScribe

/-- A run of code points, `step` apart. -/
structure CharRange where
  first : Nat
  last : Nat
  step : Nat := 1
  deriving DecidableEq, Repr, Inhabited

def CharRange.mem (r : CharRange) (c : Nat) : Bool :=
  r.first ≤ c && c ≤ r.last && (c - r.first) % r.step == 0

abbrev CharSet := List CharRange

namespace CharSet

def mem (s : CharSet) (c : Nat) : Bool := s.any (·.mem c)

def digitValue (c : Char) : Nat :=
  if c.isDigit then c.toNat - '0'.toNat else c.toNat - 'a'.toNat + 10

/-- The numbers that digits stand for. A digit below 60 ends a number; `n` is what those before it come to. -/
def numbers (n : Nat) : List Char → List Nat
  | [] => []
  | c :: cs =>
    let v := Packed.Digits.valueOf c
    if v < 60 then (60 * n + v) :: numbers 0 cs else numbers (30 * n + v - 60) cs

def numbersOf (s : String) : List Nat := numbers 0 (s.toList.filter (· != '\n'))

/-- A run after `start`, by how many code points it leaves out before and by its size. -/
def runAt (start gap size : Nat) : CharRange :=
  let step := 1 + size % 2
  ⟨start + gap, start + gap + size / 2 * step, step⟩

def ofNumbers (start : Nat) : List Nat → CharSet
  | gap :: size :: ns =>
    let run := runAt start gap size
    run :: ofNumbers (run.last + 1) ns
  | _ => []

def ofText (s : String) : CharSet := ofNumbers 0 (numbersOf s)

end CharSet

namespace CharClass

def letterSet : CharSet := .ofText CharData.letter
def wordSet : CharSet := letterSet ++ .ofText CharData.number
def decimalSet : CharSet := .ofText CharData.decimal
def digitSet : CharSet := decimalSet ++ .ofText CharData.raisedDigit
def blankSet : CharSet := .ofText CharData.blank
def upperSet : CharSet := .ofText CharData.upper
def lowerSet : CharSet := .ofText CharData.lower
def titleSet : CharSet := .ofText CharData.title
def ignorableSet : CharSet := .ofText CharData.ignorable
def identStartSet : CharSet := letterSet ++ .ofText CharData.startMark
def identPartSet : CharSet := identStartSet ++ .ofText CharData.partMark
def printableSet : CharSet := identPartSet ++ .ofText CharData.otherPrintable

/-- A class given by a test for the first 128 code points and a table for the rest. -/
def test (ascii : Char → Bool) (others : CharSet) (c : Char) : Bool :=
  if c.toNat < 128 then ascii c else others.mem c.toNat

def isWord (c : Char) : Bool := test (fun c => c.isAlphanum || c == '_') wordSet c

def isDecimal (c : Char) : Bool := test Char.isDigit decimalSet c

def isDigit (c : Char) : Bool := test Char.isDigit digitSet c

/-- White space: the six blanks and line ends of ASCII, its four separators, and all others. -/
def isBlank (c : Char) : Bool :=
  test (fun c => c == ' ' || (9 ≤ c.toNat && c.toNat ≤ 13) || (28 ≤ c.toNat && c.toNat ≤ 31))
    blankSet c

def isPrintable (c : Char) : Bool :=
  test (fun c => 32 ≤ c.toNat && c.toNat < 127) printableSet c

def isUpper (c : Char) : Bool := test Char.isUpper upperSet c
def isLower (c : Char) : Bool := test Char.isLower lowerSet c
def isTitle (c : Char) : Bool := test (fun _ => false) titleSet c

def isCased (c : Char) : Bool := isUpper c || isLower c || isTitle c

def isCaseIgnorable (c : Char) : Bool :=
  test (fun c => c == '\'' || c == '.' || c == ':' || c == '^' || c.toNat == 96) ignorableSet c

def isIdentStart (c : Char) : Bool := test (fun c => c.isAlpha || c == '_') identStartSet c

def isIdentPart (c : Char) : Bool := test (fun c => c.isAlphanum || c == '_') identPartSet c

def decimalValue (c : Char) : Nat :=
  if c.toNat < 128 then c.toNat - '0'.toNat
  else match decimalSet.find? (·.mem c.toNat) with
    | some r => (c.toNat - r.first) % 10
    | none => 0

end CharClass

namespace Text

def strip (s : String) : String :=
  String.ofList ((s.toList.dropWhile CharClass.isBlank).reverse.dropWhile CharClass.isBlank).reverse

def splitBlank (s : String) : List String :=
  (s.toList.splitBy fun a b => CharClass.isBlank a == CharClass.isBlank b).filterMap fun cs =>
    match cs with
    | [] => none
    | c :: _ => if CharClass.isBlank c then none else some (String.ofList cs)

def isIdentifier (s : String) : Bool :=
  match s.toList with
  | [] => false
  | c :: cs => CharClass.isIdentStart c && cs.all CharClass.isIdentPart

end Text

end GdScribe
