import GdScribe.Script.Request
import GdScribe.Token.Basic

/-!
# What happens while a script is read

A reader keeps a history: the lines that start, the classes and members that are read, what is put
down in the class table, and the names that are learned and used. Nothing that is read or written
depends on it.

* `ClassEntry`: what is put down in the tables of a class.
* `Use`: a bare name, with what was known where it stands.
* `Note`: a note in the history.
-/

namespace GdScribe

/-- What is put down in the tables of a class. -/
inductive ClassEntry where
  | member (name : String) (type : Ty)
  | method (name : String) (returns : Ty)
  | enumerators (names : List String) (type : Ty)
  deriving DecidableEq, Repr, Inhabited

def ClassEntry.put : ClassEntry → ClassInfo → ClassInfo
  | .member name type, c => { c with members := c.members.put name type }
  | .method name returns, c => { c with methods := c.methods.put name returns }
  | .enumerators names type, c =>
    { c with enums := names.foldl (fun t name => t.put name type) c.enums }

/-- A bare name that was read, with the class in which it stands, and what was known there. -/
structure Use where
  name : String
  owner : String
  own : ClassInfo
  base : ClassInfo
  globals : ClassInfo
  type : Ty
  role : NameRole
  deriving DecidableEq, Repr, Inhabited

/-- A note in the history of a reader. -/
inductive Note where
  | line (indent : Nat)
  | deeper
  | resumed (level : Nat)
  | member (words : List String)
  | script (name base : String)
  | opened (name base : String)
  | closed
  | skipped
  | recorded (owner : String) (entry : ClassEntry)
  | panicked
  /-- After the head of a function without a name, a token of this kind comes. -/
  | closure (next : TokenKind)
  | learned (name : String) (type : Ty)
  | used (u : Use)
  deriving DecidableEq, Repr, Inhabited

end GdScribe
