import GdScribe.Target.Pages
import GdScribe.Target.Tidy

/-!
# What the target languages have in common

Both targets write expressions and statements in the same way, up to the points where their
languages differ. A `Dialect` holds these points; the rest is written here once.

* `Dialect`: names, literals, member access and the like.
* `Dialect.expr`: an expression.
* `Dialect.matchCase` and the other heads: statements.
-/

namespace GdScribe

/-- The points where the target languages differ. -/
structure Dialect (τ : Type) where
  put : String → PageM τ Unit
  openScope : PageM τ Unit
  string : String → String
  array : String → PageM τ Unit
  dictionary : String → PageM τ Unit
  lambda : Params → String → PageM τ Unit
  name : NameRole → String → PageM τ Unit
  constant : String → String
  access : Access → PageM τ Unit
  assign : Access → String → PageM τ Unit → PageM τ Unit
  callName : Ty → String → String
  usesNew : Ty → Bool
  isType : Ty → PageM τ Unit → PageM τ Unit
  emitHead : String → String
  connect : String → PageM τ Unit → PageM τ Unit

namespace Dialect

variable {τ : Type} (d : Dialect τ)

def operatorText (op : String) : String :=
  match op with
  | "and" => "&&"
  | "or" => "||"
  | "not" => "!"
  | _ => op

/-- Writes an operator: a negation as it is, any other between blanks. -/
def operator (op : String) : PageM τ Unit :=
  let text := operatorText op
  d.put (if text = "!" then text else " " ++ text ++ " ")

mutual
def expr : Expr → PageM τ Unit
  | .nothing => return
  | .literal text => Page.write text
  | .text value => Page.write (d.string value)
  | .array items => d.array items
  | .dictionary entries => d.dictionary entries
  | .group e => do
    d.put "("
    expr e
    d.put ")"
  | .node path => do
    d.put (d.callName (some "Node") "get_node" ++ "(")
    Page.write (d.string path)
    d.put ")"
  | .lambda params body => d.lambda params body
  | .name role name => d.name role name
  | .unary op e => do
    d.operator op
    expr e
  | .binary a op b => do
    expr a
    d.operator op
    expr b
  | .isType e t => d.isType t (expr e)
  | .contains negated item itemType whole wholeType => do
    if negated then d.operator "not"
    expr whole
    d.access ⟨"", itemType, wholeType, false⟩
    d.put (d.callName (some "Array") "has" ++ "(")
    expr item
    d.put ")"
  | .choice c a b => do
    d.put "( "
    expr c
    d.put " ? "
    expr a
    d.put " : "
    expr b
    d.put " )"
  | .seq a b => do
    expr a
    expr b
  | .call caller name args => do
    d.put (d.callName caller name ++ "(")
    arguments args
    d.put ")"
  | .construct name type args => do
    if d.usesNew type then d.put "new "
    d.put (d.callName type name ++ "(")
    arguments args
    d.put ")"
  | .index key => do
    d.put "["
    expr key
    d.put "]"
  | .access a => d.access a
  | .constant name => d.put (d.constant name)
  | .assign a op value => d.assign a op (expr value)
  | .emitSignal signal args => do
    d.put (d.emitHead signal)
    moreArguments args
    d.put ")"
  | .connectSignal signal [] => d.connect signal (throw .noHandler)
  | .connectSignal signal (e :: _) => d.connect signal (expr e)

def arguments : List Expr → PageM τ Unit
  | [] => return
  | e :: es => do
    expr e
    moreArguments es

def moreArguments : List Expr → PageM τ Unit
  | [] => return
  | e :: es => do
    d.put ", "
    expr e
    moreArguments es
end

def between (before : String) (e : Expr) (after : String) : PageM τ Unit := do
  d.put before
  d.expr e
  d.put after

def assignment (e : Expr) : PageM τ Unit := do
  d.put " = "
  d.expr e

def arrayItem (e : Expr) : PageM τ Unit := do
  d.expr e
  d.put ", "

def dictionaryItem (key value : Expr) : PageM τ Unit := do
  d.put "\x7b"
  d.expr key
  d.put ", "
  d.expr value
  d.put "\x7d,"

def returnHead (e : Expr) : PageM τ Unit := do
  d.put "return "
  d.expr e

def eachAfterComma {α : Type} (act : α → PageM τ Unit) : List α → PageM τ Unit
  | [] => return
  | a :: as => do
    d.put ", "
    act a
    eachAfterComma act as

def eachListed {α : Type} (act : α → PageM τ Unit) : List α → PageM τ Unit
  | [] => return
  | a :: as => do
    act a
    d.eachAfterComma act as

def enumerators (inits : Table Expr) : List String → PageM τ (List String)
  | [] => return []
  | v :: vs => do
    let text ← match inits.find? v with
      | some e => pure (v ++ " = " ++ (← Page.onPage (d.expr e)))
      | none => pure v
    return text :: (← enumerators inits vs)

def matchHead (byJump : Bool) : PageM τ Unit := do
  if byJump then d.put "switch("
  else
    Page.openPage
    d.put "if("

def matchSubject (byJump : Bool) : PageM τ Unit := do
  if byJump then
    d.put ")"
    d.openScope
  else d.put " == "

def jumpCase (pattern guard : Option Expr) (code : String) : PageM τ Unit := do
  match pattern with
  | none => d.put "default:"
  | some p =>
    d.between "case " p ":"
    if let some g := guard then d.between " if(" g ")"
  Page.write (Target.closeWith code "\tbreak; \x7d")

def chainCase (comparison : String) (pattern guard : Option Expr) (code : String) :
    PageM τ Unit := do
  match pattern with
  | none => d.put "else "
  | some p =>
    Page.write comparison
    d.expr p
    if let some g := guard then
      d.put " && "
      d.expr g
    d.put ")"
  Page.write code

def matchCase (byJump : Bool) (comparison : String) (pattern guard : Option Expr)
    (code : String) : PageM τ Unit :=
  if byJump then d.jumpCase pattern guard code else d.chainCase comparison pattern guard code

/-- The body of a lambda: a tab after its first brace, a semicolon after its last. -/
def lambdaBody (code : String) : String :=
  Target.closeWith (Text.replaceFirst code "\x7b" "\x7b\t") "\x7d;"

def withFirstStatements (level : Int) (statements : List String) (code : String) : String :=
  let lines := statements.map fun s => "\n" ++ Text.tabs (level + 1) ++ s ++ ";"
  Text.replaceFirst code "\x7b" ("\x7b" ++ String.join lines)

end Dialect

end GdScribe
