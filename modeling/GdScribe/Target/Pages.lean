import GdScribe.Script.Request

/-!
# Pages of generated code

Targets write code to a page. A new page can be opened to collect a part of the code, which is
taken off as text when it is complete.

* `Pages`: the page, the pages below it, the indentation, and what a target knows besides.
* `write`, `openPage`, `takePage`: plain writing.
* `indented`: text with the indentation after each line end.
-/

namespace GdScribe

/-- The pages of a target, with its own state. -/
structure Pages (τ : Type) where
  level : Int := 0
  page : String := ""
  below : List String := []
  own : τ
  deriving Inhabited

/-- Actions on the pages of a target. -/
abbrev PageM (τ : Type) := DeskM (Pages τ)

namespace Page

variable {τ : Type}

/-- Adds a text to the page as it is. -/
def write (text : String) : PageM τ Unit :=
  modify fun d => { d with pages := { d.pages with page := d.pages.page ++ text } }

/-- Starts a new page on top of the others. -/
def openPage : PageM τ Unit :=
  modify fun d =>
    { d with pages := { d.pages with page := "", below := d.pages.page :: d.pages.below } }

/-- Takes the page off, and gives what is on it. -/
def takePage : PageM τ String := do
  let d ← get
  set { d with pages :=
    { d.pages with page := d.pages.below.headD "", below := d.pages.below.drop 1 } }
  return d.pages.page

/-- What an action writes, on a page of its own. -/
def onPage (act : PageM τ Unit) : PageM τ String := do
  openPage
  act
  takePage

/-- Changes the indentation by so many levels. -/
def shift (n : Int) : PageM τ Unit :=
  modify fun d => { d with pages := { d.pages with level := d.pages.level + n } }

/-- The levels of the indentation. -/
def level : PageM τ Int := return (← get).pages.level

/-- What the target knows besides. -/
def own : PageM τ τ := return (← get).pages.own

/-- Changes what the target knows. -/
def modifyOwn (f : τ → τ) : PageM τ Unit :=
  modify fun d => { d with pages := { d.pages with own := f d.pages.own } }

/-- The class table. -/
def classes : PageM τ ClassTable := return (← get).classes

/-- Notes a step of the writing. -/
def trace (line : String) : PageM τ Unit := modify fun d => d.note (.writeStep line)

/-- Notes a text that is written, as one line. -/
def traceText (text : String) : PageM τ Unit :=
  trace ("emit: " ++ Text.replaceAll (Text.replaceAll text "\n" "<EOL>") "\t" "  ")

/-- A text with the indentation after each of its line ends. -/
def indented (level : Int) (text : String) : String :=
  Text.replaceAll text "\n" ("\n" ++ Text.tabs level)

/-- The pages below a page, and the page, as one text. -/
def flushPages : List String → String → String
  | [], page => page
  | below :: rest, page => flushPages rest (below ++ page)

/-- Joins all pages. -/
def flush : PageM τ Unit :=
  modify fun d =>
    { d with pages := { d.pages with page := flushPages d.pages.below d.pages.page, below := [] } }

end Page

end GdScribe
