import GdScribe.Token.Basic

/-!
# From text to tokens

A text is cut into pieces that cover it from its first to its last character. A piece is a token,
a blank between tokens, a line that is joined to the next one, or a stray character.

* `shapes`, `pieceAt`: the shapes of tokens, tried in a fixed order, and how far each one reaches.
* `Piece`, `pieces`: the pieces of a text.
* `Lexeme`, `scan`: the tokens, each with the notices of stray characters before it.

A comparison takes the character after its operator with it.
-/

namespace GdScribe

/-- The part of a text that a rule covers: the kind of piece and its number of characters. -/
inductive PieceKind where
  | token (kind : TokenKind)
  | blank
  | joint
  | stray
  deriving DecidableEq, Repr, Inhabited

/-- A piece of the text with the place where it starts. -/
structure Piece where
  kind : PieceKind
  source : List Char
  line : Nat
  start : Nat
  deriving DecidableEq, Repr, Inhabited

namespace Scan

def oneOf (heads : List String) (cs : List Char) : Option Nat :=
  (heads.find? fun h => h.toList.isPrefixOf cs).map String.length

def run (p : Char → Bool) (cs : List Char) : Nat := (cs.takeWhile p).length

def arithmeticOperators : List String :=
  ["<<", ">>", "**", "*", "+", "-", "/", "%", "&", "^", "|"]

def comparisonOperators : List String :=
  ["==", "!=", "<=", ">=", "||", "&&", "<", ">", "and", "or"]

def unaryOperators : List String := ["~", "!", "not"]

def punctuation : List Char :=
  ['.', ':', '(', ')', '[', ']', '\x7b', '\x7d', '@', '$', '%', ',', '\\', '=']

def isSpace (c : Char) : Bool := c == ' ' || c == '\r'

/-- An arithmetic operator, with the `=` of a compound assignment if there is one. -/
def arithmetic (cs : List Char) : Option Nat :=
  (oneOf arithmeticOperators cs).map fun n => if cs[n]? = some '=' then n + 1 else n

/-- Whether `op` starts the text and a character that belongs to no word follows. -/
def comparesWith (cs : List Char) (op : String) : Bool :=
  op.toList.isPrefixOf cs && match cs[op.length]? with
    | some c => !CharClass.isWord c
    | none => false

/-- A comparison: an operator and the character after it, which belongs to no word. -/
def comparison (cs : List Char) : Option Nat :=
  (comparisonOperators.find? (comparesWith cs)).map fun op => op.length + 1

def isNameStart (c : Char) : Bool := c.isAlpha || c == '_'
def isNamePart (c : Char) : Bool := c.isAlphanum || c == '_'

def text : List Char → Option Nat
  | c :: cs => if isNameStart c then some (1 + run isNamePart cs) else none
  | [] => none

def float (cs : List Char) : Option Nat :=
  let n := run CharClass.isDecimal cs
  if cs[n]? = some '.' then
    let m := run CharClass.isDecimal (cs.drop (n + 1))
    if n = 0 ∧ m = 0 then none else some (n + 1 + m)
  else none

def isHexDigit (c : Char) : Bool :=
  c.isDigit || ('a' ≤ c && c ≤ 'f') || ('A' ≤ c && c ≤ 'F')

def hex : List Char → Option Nat
  | '0' :: x :: cs =>
    let n := run isHexDigit cs
    if (x = 'x' ∨ x = 'X') ∧ n ≠ 0 then some (2 + n) else none
  | _ => none

def int (cs : List Char) : Option Nat :=
  let n := run CharClass.isDecimal cs
  if n = 0 then none else some n

def joint : List Char → Option Nat
  | '\\' :: '\n' :: cs => some (2 + run (· == '\t') cs)
  | _ => none

def comment : List Char → Option Nat
  | '#' :: cs => some (1 + run (· != '\n') cs)
  | _ => none

def longStringEnd : List Char → Option Nat
  | [] => none
  | c :: cs =>
    if ['"', '"', '"'].isPrefixOf (c :: cs) then some 3 else (longStringEnd cs).map (· + 1)

def longString (cs : List Char) : Option Nat :=
  if ['"', '"', '"'].isPrefixOf cs then (longStringEnd (cs.drop 3)).map (· + 3) else none

/-- How many characters there are up to and with the next `quote` on the line that has no
backslash before it. -/
def stringEnd (quote : Char) (before : Char) : List Char → Option Nat
  | [] => none
  | c :: cs =>
    if c = quote ∧ before ≠ '\\' then some 1
    else if c = '\n' then none
    else (stringEnd quote c cs).map (· + 1)

def string : List Char → Option Nat
  | c :: cs => if c = '"' ∨ c = '\'' then (stringEnd c c cs).map (· + 1) else none
  | [] => none

def lineEnd : List Char → Option Nat
  | '\n' :: cs => some (1 + run (· == '\t') cs)
  | _ => none

def shapes : List (PieceKind × (List Char → Option Nat)) :=
  [(.token .arrow, oneOf ["->"]),
   (.token .arithmetic, arithmetic),
   (.token .comparison, comparison),
   (.token .unary, oneOf unaryOperators),
   (.token .text, text),
   (.token .float, float),
   (.token .hex, hex),
   (.token .int, int),
   (.joint, joint),
   (.token .comment, comment),
   (.token .longString, longString),
   (.token .string, string),
   (.token .lineEnd, lineEnd)]

/-- The kind and length of the piece at the start of a text that begins with `c`. -/
def pieceAt (c : Char) (cs : List Char) : PieceKind × Nat :=
  if isSpace c then (.blank, 1)
  else match shapes.findSome? fun s => (s.2 (c :: cs)).map fun n => (s.1, n) with
    | some p => p
    | none => if punctuation.contains c then (.token (.punct c), 1) else (.stray, 1)

def lineFeeds (kind : PieceKind) (source : List Char) : Nat :=
  match kind with
  | .token .longString | .token .string | .token .lineEnd | .joint => source.count '\n'
  | _ => 0

/-- The pieces of a text from a place on; the first argument counts the characters of a piece
that are still to be passed. -/
def piecesFrom : Nat → Nat → Nat → List Char → List Piece
  | _, _, _, [] => []
  | skip + 1, line, pos, _ :: cs => piecesFrom skip line (pos + 1) cs
  | 0, line, pos, c :: cs =>
    let (kind, n) := pieceAt c cs
    let source := (c :: cs).take n
    ⟨kind, source, line, pos⟩ :: piecesFrom (n - 1) (line + lineFeeds kind source) (pos + 1) cs

def pieces (s : String) : List Piece := piecesFrom 0 1 0 s.toList

/-- The value of a token of some kind read from `source`: what the quotes of a string enclose,
with escaped quotes made plain, a comment without its mark, the number of tabs after a line end,
and a comparison without the white space it took with it. -/
def valueOf (kind : TokenKind) (source : List Char) : String :=
  match kind with
  | .comparison => Text.strip (String.ofList source)
  | .comment => String.ofList (source.drop 1)
  | .longString => String.ofList ((source.drop 3).take (source.length - 6))
  | .string =>
    let quote := String.ofList (source.take 1)
    let inner := String.ofList ((source.drop 1).take (source.length - 2))
    Text.replaceAll inner ("\\" ++ quote) quote
  | .lineEnd => toString (source.count '\t')
  | _ => String.ofList source

end Scan

namespace Piece

def token? (p : Piece) : Option Token :=
  match p.kind with
  | .token kind =>
    some ⟨kind, Scan.valueOf kind p.source, p.line, p.start, p.start + p.source.length⟩
  | _ => none

/-- The notice that a piece gives rise to: stray characters other than tabs are reported. -/
def notice? (p : Piece) : Option String :=
  match p.kind, p.source with
  | .stray, c :: _ =>
    if c = '\t' then none
    else some ("Ignoring character '" ++ String.singleton c ++ "' line " ++ toString p.line ++
      " column " ++ toString p.start)
  | _, _ => none

end Piece

/-- A token with the notices that its reading gives rise to, in order. -/
structure Lexeme where
  notices : List String
  token : Token
  deriving DecidableEq, Repr, Inhabited

/-- A script cut into tokens, with the notices of what follows the last one. -/
structure Scanned where
  lexemes : List Lexeme
  closing : List String
  deriving DecidableEq, Repr, Inhabited

namespace Scan

/-- Groups pieces into lexemes; `waiting` holds the notices since the last token, reversed. -/
def group (waiting : List String) : List Piece → Scanned
  | [] => ⟨[], waiting.reverse⟩
  | p :: ps =>
    match p.token? with
    | some t =>
      let rest := group [] ps
      { rest with lexemes := ⟨waiting.reverse, t⟩ :: rest.lexemes }
    | none => match p.notice? with
      | some n => group (n :: waiting) ps
      | none => group waiting ps

end Scan

def scan (s : String) : Scanned := Scan.group [] (Scan.pieces s)

namespace Scan

def tokens (s : String) : List Token := (pieces s).filterMap Piece.token?

def notices (s : String) : List String := (pieces s).filterMap Piece.notice?

def finalLine (s : String) : Nat :=
  match (pieces s).getLast? with
  | some p => p.line + lineFeeds p.kind p.source
  | none => 1

end Scan

end GdScribe
