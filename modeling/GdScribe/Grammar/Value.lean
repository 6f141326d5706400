import GdScribe.Decimal.Shortest
import GdScribe.Text.Quoted

/-!
# Values

What stands for a symbol when a text is parsed: the value of a token, or what an action makes of
the values of other symbols.
-/

namespace GdScribe.Grammar

/-- The value of a symbol. -/
inductive Value where
  | none
  | bool (b : Bool)
  | number (n : Int)
  | real (digits : String)
  | text (s : String)
  | list (items : List Value)
  | tuple (items : List Value)
  | record (fields : List (String × Value))
  | token (kind : String) (value : Value)
  | failure (message : String)
  deriving Repr, Inhabited

namespace Value

mutual
/-- A value as it is shown. -/
def describe : Value → String
  | .none => "None"
  | .bool b => if b then "True" else "False"
  | .number n => toString n
  | .real digits => Decimal.render (Decimal.read digits)
  | .text s | .failure s => Text.quoted s
  | .list items => "[" ++ describeItems items ++ "]"
  | .tuple items => "(" ++ describeItems items ++ ")"
  | .record fields => "\x7b" ++ describeFields fields ++ "\x7d"
  | .token kind value => kind ++ " " ++ describe value

/-- Values with commas between them. -/
def describeItems : List Value → String
  | [] => ""
  | [v] => describe v
  | v :: vs => describe v ++ ", " ++ describeItems vs

/-- The fields of a record, with their names. -/
def describeFields : List (String × Value) → String
  | [] => ""
  | [(k, v)] => Text.quoted k ++ ": " ++ describe v
  | (k, v) :: rest => Text.quoted k ++ ": " ++ describe v ++ ", " ++ describeFields rest
end

end Value

end GdScribe.Grammar
