/-!
# Editing text

Substring operations on texts, all defined on lists of characters.

* `splitUpTo`, `splitLast`: cut at a separator from the left or from the right, at most so often.
* `replaceUpTo`, `replaceAll`, `replaceLast`: put another text in the place of an occurrence.
* `words`: the maximal runs of characters other than blanks and line ends.
-/

namespace GdScribe.Text

instance (priority := 1100) decidableForallMem {α : Type} (p : α → Prop) [DecidablePred p]
    (l : List α) : Decidable (∀ x ∈ l, p x) := List.decidableBAll p l

instance (priority := 1100) decidableExistsMem {α : Type} (p : α → Prop) [DecidablePred p]
    (l : List α) : Decidable (∃ x ∈ l, p x) := List.decidableBEx p l

/-- Cuts a text at occurrences of `sep`, from the left, at most `limit` times. The third argument
counts the characters of a separator that are still to be passed, `piece` and `done` hold the
current and the finished pieces in reverse. -/
def cutFrom (sep : List Char) : Nat → Nat → List Char → List (List Char) → List Char →
    List (List Char)
  | _, _, piece, done, [] => (piece.reverse :: done).reverse
  | limit, skip + 1, piece, done, _ :: rest => cutFrom sep limit skip piece done rest
  | 0, 0, piece, done, c :: rest => cutFrom sep 0 0 (c :: piece) done rest
  | limit + 1, 0, piece, done, c :: rest =>
    if sep.isPrefixOf (c :: rest) then
      cutFrom sep limit (sep.length - 1) [] (piece.reverse :: done) rest
    else cutFrom sep (limit + 1) 0 (c :: piece) done rest

/-- The pieces of `s` between occurrences of `sep`, from the left; `limit` bounds the cuts. -/
def cut (sep : List Char) (limit : Nat) (s : List Char) : List (List Char) :=
  cutFrom sep limit 0 [] [] s

/-- The pieces of `s` between occurrences of `sep`, cutting at most `limit` times. -/
def splitUpTo (s sep : String) (limit : Nat) : List String :=
  (cut sep.toList limit s.toList).map String.ofList

def split (s sep : String) : List String := splitUpTo s sep s.length

/-- The pieces of `s` between its last `limit` occurrences of `sep`. -/
def splitLast (s sep : String) (limit : Nat) : List String :=
  ((cut sep.toList.reverse limit s.toList.reverse).map fun p => String.ofList p.reverse).reverse

def replaceUpTo (s old new : String) (limit : Nat) : String :=
  String.intercalate new (splitUpTo s old limit)

/-- Replaces every occurrence of `old`; an empty `old` occurs around every character. -/
def replaceAll (s old new : String) : String :=
  if old.isEmpty then s.toList.foldl (fun acc c => acc ++ String.singleton c ++ new) new
  else replaceUpTo s old new s.length

def replaceFirst (s old new : String) : String := replaceUpTo s old new 1

def replaceLast (s old new : String) (limit : Nat) : String :=
  String.intercalate new (splitLast s old limit)

def startsWith (s start : String) : Bool := start.toList.isPrefixOf s.toList

def endsWith (s ending : String) : Bool := ending.toList.isSuffixOf s.toList

def occursIn (part : String) (s : String) : Bool :=
  part.isEmpty || (splitUpTo s part 1).length > 1

def dropEnd (s : String) (n : Nat) : String := String.ofList (s.toList.take (s.length - n))

def dropStart (s : String) (n : Nat) : String := String.ofList (s.toList.drop n)

def times (s : String) (n : Nat) : String := String.join (List.replicate n s)

def red (s : String) : String := "\x1b[91m" ++ s ++ "\x1b[0m"

def tabs (level : Int) : String := times "\t" level.toNat

/-- One step of `words`: the finished words and the current one, both reversed. -/
def wordStep (acc : List String × List Char) (c : Char) : List String × List Char :=
  if c = ' ' ∨ c = '\n' then
    match acc.2 with
    | [] => acc
    | w => (String.ofList w.reverse :: acc.1, [])
  else (acc.1, c :: acc.2)

def words (s : String) : List String :=
  (wordStep (s.toList.foldl wordStep ([], [])) ' ').1.reverse

def distinctSorted (texts : List String) : List String :=
  (texts.mergeSort (fun a b => decide (a ≤ b))).eraseDups

def plainLineEnds (s : String) : String := replaceAll (replaceAll s "\r\n" "\n") "\r" "\n"

end GdScribe.Text
