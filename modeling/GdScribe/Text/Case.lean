import GdScribe.Text.CharClass

/-!
# Upper and lower case

Case forms of texts over all of Unicode.

* `CaseMap`: what a character becomes in another case.
* `Text.upper`, `Text.lower`: case forms of a text; a sigma at the end of a word has a form of
  its own.
* `Text.caseForms`: the characters that differ from one in case only.
* `Text.isUpper`: a text with a character of some case, all of them upper case.
-/

namespace GdScribe

/-- Forms of characters in another case: shifted runs of code points, and single characters
whose form is a text of several. -/
structure CaseMap where
  shifts : List (CharRange × Int)
  texts : List (Nat × String)

namespace CaseMap

def readShifts (start : Nat) : List Nat → List (CharRange × Int)
  | gap :: size :: distance :: ns =>
    let run := CharSet.runAt start gap size
    (run, if distance % 2 = 0 then distance / 2 else -(distance / 2)) :: readShifts (run.last + 1) ns
  | _ => []

def readTexts (start : Nat) : List Nat → List (Nat × String)
  | gap :: a :: b :: c :: ns =>
    (start + gap, String.ofList (([a, b, c].filter (· != 0)).map Char.ofNat)) :: readTexts (start + gap + 1) ns
  | _ => []

def ofText (shifts texts : String) : CaseMap :=
  ⟨(readShifts 0 (CharSet.numbersOf shifts)).reverse, (readTexts 0 (CharSet.numbersOf texts)).reverse⟩

def form (m : CaseMap) (c : Char) : String :=
  match m.shifts.find? (·.1.mem c.toNat) with
  | some (_, d) => String.singleton (Char.ofNat (c.toNat + d).toNat)
  | none => match m.texts.find? (·.1 == c.toNat) with
    | some (_, s) => s
    | none => String.singleton c

/-- The characters beyond ASCII in the table that have a form which fits: `first` is its first
character. -/
def sources (m : CaseMap) (first : Char) (fits : String → Bool) : List Char :=
  let shifted := m.shifts.filterMap fun (run, d) =>
    let code := (first.toNat - d).toNat
    if run.mem code && fits (String.singleton first) then some (Char.ofNat code) else none
  shifted ++ m.texts.filterMap fun (code, text) =>
    if fits text then some (Char.ofNat code) else none

end CaseMap

namespace Text

def upperMap : CaseMap := .ofText CharData.toUpper CharData.toUpperTexts
def lowerMap : CaseMap := .ofText CharData.toLower CharData.toLowerTexts

def upperForm (c : Char) : String :=
  if c.toNat < 128 then String.singleton c.toUpper else upperMap.form c

/-- The lower case form of a character that is not the last sigma of a word. -/
def lowerForm (c : Char) : String :=
  if c.toNat < 128 then String.singleton c.toLower else lowerMap.form c

def lowerChar (c : Char) : Char := (lowerForm c).toList.headD c

def asciiChars : List Char := (List.range 128).map Char.ofNat

def withUpper (form : String) : List Char :=
  asciiChars.filter (upperForm · = form) ++ upperMap.sources (form.toList.headD 'A') (· = form)

def withLower (low : Char) : List Char :=
  asciiChars.filter (lowerChar · = low) ++ lowerMap.sources low (·.toList.head? = some low)

/-- The forms of a character that differ in case only, itself among them: those with the same
lower case as one that has the same upper case. -/
def caseForms (c : Char) : List Char :=
  let low := lowerChar c
  let lows := (low :: (withUpper (upperForm low)).map lowerChar).eraseDups
  (c :: lows ++ lows.flatMap withLower).eraseDups

def upper (s : String) : String := s.toList.foldl (fun acc c => acc ++ upperForm c) ""

def nextCased (cs : List Char) : Bool :=
  match cs.dropWhile CharClass.isCaseIgnorable with
  | [] => false
  | c :: _ => CharClass.isCased c

/-- Lower case forms from left to right; `before` holds what stands before, reversed. -/
def lowerFrom (before : List Char) (acc : String) : List Char → String
  | [] => acc
  | c :: rest =>
    let form := if c.toNat = 0x3A3 ∧ nextCased before ∧ ¬ nextCased rest then "ς" else lowerForm c
    lowerFrom (c :: before) (acc ++ form) rest

def lower (s : String) : String := lowerFrom [] "" s.toList

def isUpper (s : String) : Bool :=
  s.toList.any CharClass.isUpper && s.toList.all fun c => !(CharClass.isLower c || CharClass.isTitle c)

def capitalize (s : String) : String :=
  match s.toList with
  | [] => s
  | c :: cs => upperForm c ++ String.ofList cs

end Text

end GdScribe
