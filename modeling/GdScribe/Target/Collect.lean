import GdScribe.Script.Run

/-!
# Collecting classes

A target that writes nothing. Reading a script for it records the script's classes in the class
table, so that other scripts can refer to them. Expressions are still gone through, because some
of them cannot be written by any target.
-/

namespace GdScribe.Collect

mutual
/-- The fault that writing an expression meets, if any. The arguments of new objects are not gone
through. -/
def fault? : Expr → Option Fault
  | .group e | .unary _ e | .isType e _ | .index e | .assign _ _ e => fault? e
  | .binary a _ b | .seq a b => (fault? a).or (fault? b)
  | .contains _ item _ whole _ => (fault? whole).or (fault? item)
  | .choice c a b => ((fault? c).or (fault? a)).or (fault? b)
  | .call _ _ args | .emitSignal _ args => faults? args
  | .connectSignal _ [] => some .noHandler
  | .connectSignal _ (e :: _) => fault? e
  | _ => none

def faults? : List Expr → Option Fault
  | [] => none
  | e :: es => (fault? e).or (faults? es)
end

def require (f : Option Fault) : DeskM Unit Unit :=
  match f with
  | some f => throw f
  | none => return

/-- The initial values of parameters, in the order of the parameters. -/
def initsInOrder (params : Params) (inits : Table Expr) : List Expr :=
  params.keys.filterMap inits.find?

def serve : Request → DeskM Unit Unit
  | .enumeration _ values inits => require (faults? (initsInOrder values inits))
  | .property p _ => require (faults? p.init.toList)
  | .localVariable _ _ init => require (faults? init.toList)
  | .method m => require (faults? (initsInOrder m.params m.inits))
  | .assignment e | .expr e | .arrayItem e | .ifHead e | .elifHead e | .whileHead e
  | .returnHead e | .forHead _ _ e => require (fault? e)
  | .dictionaryItem k v => require (faults? [k, v])
  | .matchCase _ _ (some p) guard _ => require (faults? (p :: guard.toList))
  | _ => return

def writer : Writer Unit := ⟨serve, return ""⟩

end GdScribe.Collect
