import GdScribe.Text.Quoted

/-!
# Tokens

The tokens of a script: what kind they are of, the value the reader works with, and where they
stand in the text. Positions count characters.
-/

namespace GdScribe

/-- What a token is. A `punct` is a single character that stands for itself. -/
inductive TokenKind where
  | comment
  | lineEnd
  | text
  | arrow
  | float
  | hex
  | int
  | string
  | longString
  | unary
  | comparison
  | arithmetic
  | punct (c : Char)
  | eof
  deriving DecidableEq, Repr, Inhabited

def TokenKind.name : TokenKind → String
  | .comment => "COMMENT"
  | .lineEnd => "LINE_END"
  | .text => "TEXT"
  | .arrow => "ARROW"
  | .float => "FLOAT"
  | .hex => "HEX"
  | .int => "INT"
  | .string => "STRING"
  | .longString => "LONG_STRING"
  | .unary => "UNARY"
  | .comparison => "COMPARISON"
  | .arithmetic => "ARITHMETIC"
  | .punct c => String.singleton c
  | .eof => "EOF"

/-- A token: its kind, its value, its line, and the span of the text it was read from. -/
structure Token where
  kind : TokenKind
  value : String
  line : Nat
  start : Nat
  stop : Nat
  deriving DecidableEq, Repr, Inhabited

namespace Token

def numberOf (digits : String) : Nat :=
  digits.toList.foldl (fun n c => 10 * n + (c.toNat - '0'.toNat)) 0

/-- The indentation that a line end announces: its value is the number of tabs that follow. -/
def indent (t : Token) : Nat := numberOf t.value

def atEnd (t : Token) : Token := { t with kind := .eof, value := "EOF" }

def describe (t : Token) : String :=
  "Token(type=" ++ Text.quoted t.kind.name ++ ", value=" ++ Text.quoted t.value ++
    ", lineno=" ++ toString t.line ++ ", index=" ++ toString t.start ++
    ", end=" ++ toString t.stop ++ ")"

end Token

end GdScribe
