import GdScribe.Proofs.Blocks.Source
import GdScribe.Proofs.Token.Lexing

/-!
# Lines of text

How the lines of a script made of blocks are written, and what a reader finds in them.

* `FreeName`: names that are no words of the language.
* `Line.text`, `Row.text`, `Line.words`: a line of code as text and as words.
* `Entry`, `tailWords`: the lines after a line end, blank ones among them, and their words.

Main statement: `due_of_lines`.
-/

namespace GdScribe

open List

/-- The words with which a statement, or what can follow in one, starts. -/
def keywords : List String :=
  Phrase.reserved ++ ["pass", "var", "const", "elif", "while", "for", "match", "return", "await",
    "break", "continue"]

/-- A name that is no word of the language. -/
structure FreeName (n : String) : Prop where
  identifier : Scan.IsIdentifier n
  free : n ∉ keywords

instance (n : String) : Decidable (FreeName n) :=
  decidable_of_iff (Scan.IsIdentifier n ∧ n ∉ keywords) ⟨fun h => ⟨h.1, h.2⟩, fun h => ⟨h.identifier, h.free⟩⟩

namespace FreeName

variable {n x : String}

theorem isName (h : FreeName n) : Phrase.IsName n := by
  refine ⟨fun hr => h.free (mem_append_left _ hr), ?_, h.identifier.letters⟩
  rintro rfl
  exact absurd h.identifier.start nofun

theorem ne (h : FreeName n) (hx : x ∈ keywords ∨ ∃ c ∈ x.toList, Scan.isNamePart c = false) : n ≠ x := by
  rcases hx with hx | hx
  · exact fun he => h.free (he ▸ hx)
  · exact h.isName.ne (.inr hx)

end FreeName

/-! ## Lines of code -/

/-- The text of a statement without a block. -/
def Simple.text : Simple → String
  | .pass => "pass"
  | .stop => "break"
  | .skip => "continue"
  | .result digits => "return " ++ digits
  | .call name => name ++ "()"

/-- The text of a line. -/
def Line.text : Line → String
  | .simple s => s.text
  | .head (.choice c) => "if " ++ c ++ ":"
  | .head (.alternative c) => "elif " ++ c ++ ":"
  | .head .otherwise => "else:"
  | .head (.loop c) => "while " ++ c ++ ":"
  | .head (.each x xs) => "for " ++ x ++ " in " ++ xs ++ ":"
  | .function name => "func " ++ name ++ "():"
  | .inner name => "class " ++ name ++ ":"

/-- The text of a line with its indentation. -/
def Row.text (r : Row) : String := String.ofList (List.replicate r.indent '\t') ++ r.line.text

/-- The words of a statement without a block. -/
def Simple.words : Simple → List Word
  | .pass => [textWord "pass"]
  | .stop => [textWord "break"]
  | .skip => [textWord "continue"]
  | .result digits => [textWord "return", (.int, digits)]
  | .call name => [textWord name, mark '(', mark ')']

/-- The words of a line. -/
def Line.words : Line → List Word
  | .simple s => s.words
  | .head (.choice c) => [textWord "if", textWord c, mark ':']
  | .head (.alternative c) => [textWord "elif", textWord c, mark ':']
  | .head .otherwise => [textWord "else", mark ':']
  | .head (.loop c) => [textWord "while", textWord c, mark ':']
  | .head (.each x xs) => [textWord "for", textWord x, textWord "in", textWord xs, mark ':']
  | .function name => [textWord "func", textWord name, mark '(', mark ')', mark ':']
  | .inner name => [textWord "class", textWord name, mark ':']

/-- Names are free, and numbers consist of digits. -/
def Line.Proper : Line → Prop
  | .simple (.result digits) => digits ≠ "" ∧ ∀ c ∈ digits.toList, CharClass.isDecimal c = true
  | .simple (.call name) => FreeName name
  | .simple _ | .head .otherwise => True
  | .head (.choice c) | .head (.alternative c) | .head (.loop c) => FreeName c
  | .head (.each x xs) => FreeName x ∧ FreeName xs
  | .function name | .inner name => FreeName name

instance : (l : Line) → Decidable l.Proper
  | .simple (.result _) => inferInstanceAs (Decidable (_ ∧ _))
  | .simple (.call name) => inferInstanceAs (Decidable (FreeName name))
  | .simple .pass | .simple .stop | .simple .skip | .head .otherwise => inferInstanceAs (Decidable True)
  | .head (.choice c) | .head (.alternative c) | .head (.loop c) => inferInstanceAs (Decidable (FreeName c))
  | .head (.each _ _) => inferInstanceAs (Decidable (_ ∧ _))
  | .function name | .inner name => inferInstanceAs (Decidable (FreeName name))

open Scan (Lexes)

section lexing

variable {rest : List Char} {ws : List Word} {c : String}

theorem lexes_head {w : String} (hw : Scan.IsIdentifier w) (hc : FreeName c) (hr : Lexes rest ws) :
    Lexes ((w ++ " " ++ c ++ ":").toList ++ rest) (textWord w :: textWord c :: mark ':' :: ws) := by
  have lexed := Lexes.punct (c := ':') (by decide) hr
  exact .of_eq (.identifier hw rfl <| .space <| .identifier hc.identifier rfl lexed) (by simp)

/-- **The words of a line.** -/
theorem Line.lexes (l : Line) (hp : l.Proper) (hr : Lexes ('\n' :: rest) ws) :
    Lexes (l.text.toList ++ '\n' :: rest) (l.words ++ ws) := by
  match l, hp with
  | .simple .pass, _ | .simple .stop, _ | .simple .skip, _ =>
    exact .identifier (by decide) rfl hr
  | .simple (.result digits), ⟨hne, hd⟩ =>
    exact .of_eq (.identifier (by decide) rfl (.space (.number hne hd hr))) (by simp [text, Simple.text])
  | .simple (.call name), hn =>
    have brackets := Lexes.punct (c := '(') (by decide) (.punct (c := ')') (by decide) hr)
    exact .of_eq (.identifier hn.identifier rfl brackets) (by simp [text, Simple.text])
  | .head (.choice _), hc => exact lexes_head (w := "if") (by decide) hc hr
  | .head (.alternative _), hc => exact lexes_head (w := "elif") (by decide) hc hr
  | .head .otherwise, _ =>
    exact .identifier (n := "else") (by decide) rfl (.punct (by decide) hr)
  | .head (.loop _), hc => exact lexes_head (w := "while") (by decide) hc hr
  | .head (.each x xs), ⟨hx, hxs⟩ =>
    have rest := lexes_head (w := "in") (by decide) hxs hr
    exact .of_eq (.identifier (by decide) rfl <| .space <| .identifier hx.identifier rfl <| .space rest)
      (by simp [text])
  | .function name, hn =>
    have colon := Lexes.punct (c := ':') (by decide) hr
    have brackets := Lexes.punct (c := '(') (by decide) (.punct (c := ')') (by decide) colon)
    exact .of_eq (.identifier (by decide) rfl <| .space <| .identifier hn.identifier rfl brackets) (by simp [text])
  | .inner _, hn => exact lexes_head (w := "class") (by decide) hn hr

end lexing

/-! ## Lines with blank ones between them -/

/-- A line after a line end. -/
inductive Entry where
  | blank (indent : Nat)
  | code (r : Row)

/-- The lines of code. -/
def codeRows : List Entry → List Row
  | [] => []
  | .blank _ :: es => codeRows es
  | .code r :: es => r :: codeRows es

/-- The word of a line end before some tabs. -/
def lineWord (indent : Nat) : Word := (.lineEnd, toString indent)

/-- The words after a line of code: a line end before each line, and one after all. -/
def tailWords : List Entry → List Word
  | [] => [lineWord 0]
  | .blank n :: es => lineWord n :: tailWords es
  | .code r :: es => lineWord r.indent :: r.line.words ++ tailWords es

/-- The words at a line of code, or at the end. -/
inductive Ahead : List Row → List Word → Prop
  | done : Ahead [] [(.eof, "EOF")]
  | line (r : Row) (es : List Entry) : Ahead (r :: codeRows es) (r.line.words ++ tailWords es)

/-- The words somewhere between two lines of code. -/
inductive Due : List Row → List Word → Prop
  | lines (es : List Entry) : Due (codeRows es) (tailWords es)
  | ahead {rows : List Row} {ws : List Word} (h : Ahead rows ws) : Due rows ws

/-- Whether a line is blank. -/
def isBlankLine (s : String) : Bool := s.toList.all fun c => c == ' ' || c == '\t' || c == '\r'

/-- The text of lines, with a line end before each and one after all. -/
def linesText : List String → List Char
  | [] => ['\n']
  | l :: ls => '\n' :: l.toList ++ linesText ls

theorem linesText_start (ls : List String) : ∃ cs, linesText ls = '\n' :: cs := by
  cases ls with
  | nil => exact ⟨_, rfl⟩
  | cons l ls => exact ⟨_, rfl⟩

theorem toList_intercalate_lines (l : String) (ls : List String) :
    (String.intercalate "\n" (l :: ls) ++ "\n").toList = l.toList ++ linesText ls := by
  induction ls generalizing l with
  | nil => simp [linesText]
  | cons m ls ih =>
    rw [String.intercalate_cons_cons, String.append_assoc, String.toList_append, ih]
    simp [linesText]

section lines

variable {rest : List Char} {ws : List Word}

theorem lexes_blanks {cs : List Char} (h : cs.all (fun c => c == ' ' || c == '\t' || c == '\r') = true)
    (hr : Lexes rest ws) : Lexes (cs ++ rest) ws := by
  induction cs with
  | nil => exact hr
  | cons c cs ih =>
    rw [all_cons, Bool.and_eq_true] at h
    have more := ih h.2
    simp only [Bool.or_eq_true, beq_iff_eq] at h
    rcases h.1 with (rfl | rfl) | rfl
    · exact more.space
    · exact more.tab
    · exact more.carriageReturn

theorem lexes_blankLine {l : String} (h : isBlankLine l = true) (hhead : rest.head? ≠ some '\t')
    (hr : Lexes rest ws) : ∃ n, Lexes ('\n' :: l.toList ++ rest) (lineWord n :: ws) := by
  -- the tabs at the start of the line belong to the line end
  have tabs : l.toList.takeWhile (· == '\t') = replicate (l.toList.takeWhile (· == '\t')).length '\t' :=
    eq_replicate_iff.mpr ⟨rfl, fun c hc => by simpa using mem_takeWhile_imp hc⟩
  have head : (l.toList.dropWhile (· == '\t') ++ rest).head? ≠ some '\t' := by
    cases hd : l.toList.dropWhile (· == '\t') with
    | nil => exact hhead
    | cons c cs =>
      have hc := head?_dropWhile_not (· == '\t') l.toList
      rw [hd] at hc
      rintro ⟨⟩
      exact Bool.false_ne_true hc.symm
  have others : (l.toList.dropWhile (· == '\t')).all (fun c => c == ' ' || c == '\t' || c == '\r') =
      true := all_eq_true.mpr fun c hc =>
    all_eq_true.mp h c ((dropWhile_suffix (· == '\t')).subset hc)
  refine ⟨(l.toList.takeWhile (· == '\t')).length, ?_⟩
  have cut := Lexes.lineEnd (l.toList.takeWhile (· == '\t')).length head (lexes_blanks others hr)
  rw [← tabs, cons_append, ← append_assoc, takeWhile_append_dropWhile] at cut
  exact cut

theorem Line.text_start {l : Line} (hp : l.Proper) : ∃ c cs, l.text.toList = c :: cs ∧ Scan.isNameStart c = true := by
  have start {w t : String} (h : w.toList.head?.any Scan.isNameStart = true) :
      ∃ c cs, (w ++ t).toList = c :: cs ∧ Scan.isNameStart c = true := by
    cases hw : w.toList with
    | nil => rw [hw] at h; cases h
    | cons c cs => exact ⟨c, cs ++ t.toList, by rw [String.toList_append, hw]; rfl, by simpa [hw] using h⟩
  match l, hp with
  | .simple .pass, _ | .simple .stop, _ | .simple .skip, _ | .head .otherwise, _ =>
    exact ⟨_, _, rfl, rfl⟩
  | .simple (.result _), _ => exact start rfl
  | .simple (.call _), hn => exact start hn.identifier.start
  | .head (.choice _), _ | .head (.alternative _), _ | .head (.loop _), _ | .head (.each ..), _
  | .function _, _ | .inner _, _ =>
    simp only [text, String.append_assoc]
    exact start rfl

/-- **The words of lines**, blank ones among them. -/
theorem lexes_lines (ls : List String) (rows : List Row) (hp : ∀ r ∈ rows, r.line.Proper)
    (h : ls.filter (fun l => !isBlankLine l) = rows.map Row.text) :
    ∃ es, codeRows es = rows ∧ Lexes (linesText ls) (tailWords es) := by
  induction ls generalizing rows with
  | nil =>
    cases rows with
    | nil => exact ⟨[], rfl, Lexes.lineEnd 0 nofun .nil⟩
    | cons r rows => cases h
  | cons l ls ih =>
    obtain ⟨cs, hcs⟩ := linesText_start ls
    have head : (linesText ls).head? ≠ some '\t' := by rw [hcs]; nofun
    by_cases hb : isBlankLine l = true
    · rw [filter_cons_of_neg (by simp [hb])] at h
      obtain ⟨es, hes, hlex⟩ := ih rows hp h
      obtain ⟨n, hn⟩ := lexes_blankLine hb head hlex
      exact ⟨.blank n :: es, hes, hn⟩
    · rw [filter_cons_of_pos (by simp [hb])] at h
      cases rows with
      | nil => cases h
      | cons r rows =>
        obtain ⟨rfl, hrest⟩ := cons.inj h
        have proper := hp r mem_cons_self
        obtain ⟨es, hes, hlex⟩ := ih rows (fun r hr => hp r (.tail _ hr)) hrest
        refine ⟨.code r :: es, congrArg _ hes, ?_⟩
        obtain ⟨c, ds, htext, hc⟩ := r.line.text_start proper
        have start : (r.line.text.toList ++ linesText ls).head? ≠ some '\t' := by
          rw [htext]
          rintro ⟨⟩
          exact Bool.false_ne_true hc
        rw [hcs] at hlex start
        have code := Lexes.lineEnd r.indent start (r.line.lexes proper hlex)
        rw [linesText, Row.text, String.toList_append, String.toList_ofList, hcs, cons_append, append_assoc]
        exact code

/-- **The words of a script**, in which blank lines stand anywhere. -/
theorem due_of_lines (lines : List String) (rows : List Row) (hp : ∀ r ∈ rows, r.line.Proper)
    (hfirst : ∀ r ∈ rows.head?, r.indent = 0) (h : lines.filter (fun l => !isBlankLine l) = rows.map Row.text) :
    ∃ ws, Due rows ws ∧ Lexes (String.intercalate "\n" lines ++ "\n").toList ws := by
  cases lines with
  | nil =>
    cases rows with
    | nil => exact ⟨_, .lines [], Lexes.lineEnd 0 nofun .nil⟩
    | cons r rows => cases h
  | cons l ls =>
    rw [toList_intercalate_lines]
    by_cases hb : isBlankLine l = true
    · rw [filter_cons_of_neg (by simp [hb])] at h
      obtain ⟨es, rfl, hlex⟩ := lexes_lines ls rows hp h
      exact ⟨_, .lines es, lexes_blanks hb hlex⟩
    · rw [filter_cons_of_pos (by simp [hb])] at h
      cases rows with
      | nil => cases h
      | cons r rows =>
        obtain ⟨rfl, hrest⟩ := cons.inj h
        obtain ⟨es, rfl, hlex⟩ := lexes_lines ls rows (fun r hr => hp r (.tail _ hr)) hrest
        obtain ⟨cs, hcs⟩ := linesText_start ls
        refine ⟨_, .ahead (.line r es), ?_⟩
        rw [Row.text, hfirst r rfl, hcs]
        rw [hcs] at hlex
        exact r.line.lexes (hp r mem_cons_self) hlex

end lines

end GdScribe
