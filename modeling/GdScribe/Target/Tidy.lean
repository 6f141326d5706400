/-!
# Tidying generated code

Line-wise and brace-wise edits of finished code.

* `tidy`: keeps at most so many line ends in a row and drops semicolons at the start of a line.
* `closeWith`: puts a text in the place of the brace that closes the first open one.
* `splitArguments`: cuts at the commas outside parentheses.
-/

namespace GdScribe.Target

/-- The state of `tidy`: the line ends since the last code, the blanks since the last line end
in reverse, and the text so far. -/
structure TidyState where
  breaks : Nat := 0
  blanks : List Char := []
  done : String := ""

def TidyState.step (limit : Nat) (s : TidyState) (c : Char) : TidyState :=
  if c = '\n' then
    ⟨s.breaks + 1, [], if s.breaks < limit then s.done.push c else s.done⟩
  else if 0 < s.breaks ∧ c = ';' then s
  else if 0 < s.breaks ∧ (c = ' ' ∨ c = '\t') then { s with blanks := c :: s.blanks }
  else ⟨0, [], s.done ++ String.ofList s.blanks.reverse ++ String.singleton c⟩

/-- Keeps at most `limit` line ends in a row, blank lines' blanks aside, and drops the semicolons
before the first code of a line. -/
def tidy (limit : Nat) (s : String) : String := (s.toList.foldl (TidyState.step limit) {}).done

/-- The number of open braces from which counting goes on after a replacement. It takes as many more
closing braces than opening ones until another brace is replaced. -/
def farDepth : Int := 999

/-- One character of `closeWith`: the number of open braces and the text so far. -/
def closingBraceStep (replacement : String) (s : Int × String) (c : Char) : Int × String :=
  if c = '\x7b' then (s.1 + 1, s.2.push c)
  else if c = '\x7d' then
    if s.1 - 1 = 0 then (farDepth, s.2 ++ replacement) else (s.1 - 1, s.2.push c)
  else (s.1, s.2.push c)

/-- Puts `replacement` in the place of the first closing brace that leaves no brace open. A later one
is replaced only if it closes `farDepth` braces more than are opened in between. -/
def closeWith (s replacement : String) : String :=
  (s.toList.foldl (closingBraceStep replacement) (0, "")).2

/-- One character of `splitArguments`: the open parentheses, the current argument reversed, and
the finished ones reversed. -/
def argumentStep (s : Int × List Char × List String) (c : Char) : Int × List Char × List String :=
  if c = '(' then (s.1 + 1, c :: s.2.1, s.2.2)
  else if c = ')' then (s.1 - 1, c :: s.2.1, s.2.2)
  else if c = ',' ∧ s.1 = 0 then (s.1, [], String.ofList s.2.1.reverse :: s.2.2)
  else (s.1, c :: s.2.1, s.2.2)

/-- The parts of `s` between the commas that stand outside parentheses. -/
def splitArguments (s : String) : List String :=
  let (_, current, done) := s.toList.foldl argumentStep (0, [], [])
  (String.ofList current.reverse :: done).reverse

end GdScribe.Target
