import GdScribe.Grammar.Parse
import GdScribe.Lexer.Run

/-!
# Classes with documentation that is read

The documentation of a class is read as a list of names with numbers, which become attributes of
the class.

* `lexer`, `parser?`: how documentation is read.
* `Documented`: what is known of a class before its documentation is read.
* `Documented.attributes`: the attributes of the class, with a log of errors.
-/

namespace GdScribe.Class

open Grammar (Value)

/-- The tokens of documentation: names, numbers and the equals sign. -/
def lexer : Lexer.Collection :=
  let d : Lexer.Definition :=
    { ignore := some (some " \n")
      tokens := some ["NAME", "NUMBER", "EQ"]
      items := [.rule "NAME" "[a-z]+", .rule "NUMBER" "[0-9]+", .rule "EQ" "="] }
  ((Lexer.Collection.ofDefinitions [d]).toOption).getD {}

/-- The grammar of documentation: any number of names with numbers. -/
def definition : Grammar.Definition :=
  { tokens := some ["NAME", "NUMBER", "EQ"]
    rules :=
      [{ name := "top", texts := ["defs"], line := 1 },
       { name := "defs", texts := ["defs NAME EQ NUMBER"], line := 2 },
       { name := "defs", texts := [""], line := 3 }] }

def parser? : Option Grammar.Parser := definition.build.2.toOption

/-- What is known of a class before its documentation is read. -/
structure Documented where
  name : String
  qualifiedName : String
  moduleName : String
  doc : Option String := none
  attributes : Table Value := {}
  hasReader : Bool := true
  namesOnly : Bool := false
  deriving Inhabited

/-- Why a class cannot be made. -/
inductive DocFault where
  | noReader
  | noAttributes
  | lexer (stop : Lexer.Stop)
  deriving DecidableEq, Repr, Inhabited

namespace DocFault

def message : DocFault → String
  | .noReader => ""
  | .noAttributes => "Parser must return a dictionary"
  | .lexer s => s.message?.getD ""

end DocFault

def numberOf (digits : String) : Int :=
  digits.toList.foldl (fun n c => 10 * n + (c.toNat - '0'.toNat : Nat)) (0 : Int)

/-- The names with numbers that a tree of definitions holds, a later one of the same name wins. -/
def entries : Value → Table Value
  | .list [_, earlier, .text name, _, .text digits] =>
    (entries earlier).put name (.number (numberOf digits))
  | _ => {}

def symbolOf (t : Lexer.Token) : Grammar.Symbol :=
  { kind := t.kind, value := .text t.value, isToken := true,
    span := ⟨some t.line, some t.start, some t.stop⟩ }

namespace Documented

def found (c : Documented) : Value → Except DocFault (Table Value)
  | .list [_, defs] =>
    if c.namesOnly then .error .noAttributes
    else
      let names := [c.name, c.qualifiedName, c.moduleName]
      .ok ((entries defs).put "seen" (.list (names.map .text)))
  | _ => .error .noAttributes

/-- Reads documentation: the attributes that it gives, and what was reported on the way. -/
def read (c : Documented) (doc : String) : String × Except DocFault (Table Value) :=
  match parser?, lexer.run 0 doc 1 0 with
  | none, _ => ("", .error .noReader)
  | _, .error stop => ("", .error (.lexer stop))
  | some p, .ok r =>
    let result := p.parse .report (r.tokens.map symbolOf) r.stop.isSome
    (result.reported, match result.ending, r.stop with
      | .value v _, _ => c.found v
      | .brokenInput, some stop => .error (.lexer stop)
      | _, _ => .error .noAttributes)

def allAttributes (c : Documented) : String × Except DocFault (Table Value) :=
  if !c.hasReader then ("", .error .noReader)
  else match c.doc with
    | none => ("", .ok c.attributes)
    | some doc =>
      let (reported, found) := c.read doc
      (reported, found.map c.attributes.merge)

def isOwn (name : String) : Bool := !Text.startsWith name "__"

end Documented

end GdScribe.Class
