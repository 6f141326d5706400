import GdScribe.ClassTable.Basic

/-!
# Expressions that are ready to be written

The reader turns an expression into an `Expr`: a tree that holds everything a target needs to
write it. The contents of arrays, dictionaries and lambdas are written while they are read, so
the tree holds their text.
-/

namespace GdScribe

abbrev Params := Table Ty

/-- What a bare name stands for. -/
inductive NameRole where
  | singleton
  | property
  | variable
  deriving DecidableEq, Repr, Inhabited

/-- An access to a member through its owner; an empty name stands for the access alone. -/
structure Access where
  name : String
  owner : Ty
  member : Ty
  singleton : Bool := false
  deriving DecidableEq, Repr, Inhabited

/-- An expression that is ready to be written. -/
inductive Expr where
  | nothing
  | literal (text : String)
  | text (value : String)
  | array (items : String)
  | dictionary (entries : String)
  | group (inner : Expr)
  | node (path : String)
  | lambda (params : Params) (body : String)
  | name (role : NameRole) (name : String)
  | unary (op : String) (operand : Expr)
  | binary (left : Expr) (op : String) (right : Expr)
  | isType (operand : Expr) (type : Ty)
  | contains (negated : Bool) (item : Expr) (itemType : Ty) (whole : Expr) (wholeType : Ty)
  | choice (condition whenTrue whenFalse : Expr)
  /-- One expression directly after another: a value and what is done with it. -/
  | seq (first rest : Expr)
  | call (caller : Ty) (name : String) (args : List Expr)
  | construct (name : String) (type : Ty) (args : List Expr)
  | index (key : Expr)
  | access (a : Access)
  | constant (name : String)
  | assign (a : Access) (op : String) (value : Expr)
  | emitSignal (signal : String) (args : List Expr)
  | connectSignal (signal : String) (args : List Expr)
  deriving Inhabited

end GdScribe
