import GdScribe.Text.CharClass

/-!
# Quoted text

A text in quotes: single quotes, or double quotes if the text holds a single quote and no double
one. The quote used, backslashes, and the three common control characters are written with a
backslash; other characters that cannot be shown are written by their code point.
-/

namespace GdScribe.Text

def hexDigits (n width : Nat) : String :=
  let digits := Nat.toDigits 16 n
  String.ofList (List.replicate (width - digits.length) '0' ++ digits)

def quotedChar (quote c : Char) : String :=
  if c = quote ∨ c = '\\' then "\\" ++ String.singleton c
  else if c = '\n' then "\\n"
  else if c = '\r' then "\\r"
  else if c = '\t' then "\\t"
  else if CharClass.isPrintable c then String.singleton c
  else if c.toNat < 0x100 then "\\x" ++ hexDigits c.toNat 2
  else if c.toNat < 0x10000 then "\\u" ++ hexDigits c.toNat 4
  else "\\U" ++ hexDigits c.toNat 8

/-- The quote for a text: double only if the text has a single quote and no double one. -/
def quoteFor (s : String) : Char :=
  if s.toList.contains '\'' && !s.toList.contains '"' then '"' else '\''

def quoted (s : String) : String :=
  let q := quoteFor s
  s.toList.foldl (fun acc c => acc ++ quotedChar q c) (String.singleton q) ++ String.singleton q

end GdScribe.Text
