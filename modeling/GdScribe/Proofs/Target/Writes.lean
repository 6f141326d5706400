import GdScribe.Proofs.Reader.Alike
import GdScribe.Target.Dialect

/-!
# What holds of all that a dialect writes

Expressions and statements are written from a few actions of a dialect. A relation between actions that
these have, and that actions in a row have if each of them does, holds of everything that is written of
expressions that are alike.

Principal results: `Dialect.Writes.expr` — what is written of expressions is related;
`Dialect.Writes.matchCase` and the lemmas before it — so is what is written of the parts of statements.
-/

namespace GdScribe

open Read (ExprAlike ExprsAlike InitAlike)

variable {τ : Type}

/-- The actions from which a dialect writes are related, also in a row. -/
structure Dialect.Writes (d : Dialect τ) (text contents : String → String → Prop)
    (P : PageM τ Unit → PageM τ Unit → Prop) : Prop where
  pure : P (Pure.pure ()) (Pure.pure ())
  noHandler : P (MonadExcept.throw .noHandler) (MonadExcept.throw .noHandler)
  bind : ∀ {x x' y y'}, P x x' → P y y' → P (x >>= fun _ => y) (x' >>= fun _ => y')
  same : ∀ a, text a a
  string : ∀ {a b}, contents a b → text (d.string a) (d.string b)
  jump : ∀ {a b}, text a b →
    text (Target.closeWith a "\tbreak; \x7d") (Target.closeWith b "\tbreak; \x7d")
  write : ∀ {a b}, text a b → P (Page.write a) (Page.write b)
  put : ∀ a, P (d.put a) (d.put a)
  array : ∀ {a b}, text a b → P (d.array a) (d.array b)
  dictionary : ∀ {a b}, text a b → P (d.dictionary a) (d.dictionary b)
  lambda : ∀ params {a b}, text a b → P (d.lambda params a) (d.lambda params b)
  name : ∀ role name, P (d.name role name) (d.name role name)
  access : ∀ a, P (d.access a) (d.access a)
  assign : ∀ a op {x y}, P x y → P (d.assign a op x) (d.assign a op y)
  isType : ∀ type {x y}, P x y → P (d.isType type x) (d.isType type y)
  connect : ∀ signal {x y}, P x y → P (d.connect signal x) (d.connect signal y)

/-- The actions from which a dialect writes have a property. -/
abbrev Dialect.Has (d : Dialect τ) (P : PageM τ Unit → Prop) : Prop := d.Writes Eq Eq fun x _ => P x

namespace Dialect.Writes

variable {d : Dialect τ} {text contents : String → String → Prop}
variable {P : PageM τ Unit → PageM τ Unit → Prop} (H : d.Writes text contents P)

include H

theorem operator (op : String) : P (d.operator op) (d.operator op) := H.put _

omit H in
theorem ite {c : Prop} [Decidable c] {x y x' y' : PageM τ Unit} (hx : P x x') (hy : P y y') :
    P (if c then x else y) (if c then x' else y') := by
  split
  · exact hx
  · exact hy

mutual
/-- **Expressions**, by recursion on the first of them. -/
theorem expr : ∀ e {e'}, ExprAlike text contents e e' → P (d.expr e) (d.expr e')
  | .nothing, _, .nothing => H.pure
  | .literal _, _, .literal _ => H.write (H.same _)
  | .text _, _, .text h => H.write (H.string h)
  | .array _, _, .array h => H.array h
  | .dictionary _, _, .dictionary h => H.dictionary h
  | .group e, _, .group h => H.bind (H.put _) (H.bind (expr e h) (H.put _))
  | .node _, _, .node _ => H.bind (H.put _) (H.bind (H.write (H.same _)) (H.put _))
  | .lambda params _, _, .lambda _ h => H.lambda params h
  | .name role name, _, .name _ _ => H.name role name
  | .unary op e, _, .unary _ h => H.bind (H.operator op) (expr e h)
  | .binary a op b, _, .binary _ h h' => H.bind (expr a h) (H.bind (H.operator op) (expr b h'))
  | .isType e t, _, .isType _ h => H.isType t (expr e h)
  | .contains negated item itemType whole wholeType, .contains _ item' _ whole' _, .contains _ _ _ h h' => by
    rw [Dialect.expr, Dialect.expr]
    refine ite (H.bind (H.operator _) ?_) ?_
    all_goals exact H.bind (expr whole h') (H.bind (H.access _) (H.bind (H.put _) (H.bind (expr item h) (H.put _))))
  | .choice c a b, _, .choice h h' h'' => H.bind (H.put _) <| H.bind (expr c h) <| H.bind (H.put _) <|
      H.bind (expr a h') <| H.bind (H.put _) <| H.bind (expr b h'') (H.put _)
  | .seq a b, _, .seq h h' => H.bind (expr a h) (expr b h')
  | .call _ _ args, _, .call _ _ h => H.bind (H.put _) (H.bind (arguments args h) (H.put _))
  | .construct name type args, .construct _ _ args', .construct _ _ h => by
    rw [Dialect.expr, Dialect.expr]
    refine ite (H.bind (H.put _) ?_) ?_
    all_goals exact H.bind (H.put _) (H.bind (arguments args h) (H.put _))
  | .index key, _, .index h => H.bind (H.put _) (H.bind (expr key h) (H.put _))
  | .access a, _, .access _ => H.access a
  | .constant _, _, .constant _ => H.put _
  | .assign a op value, _, .assign _ _ h => H.assign a op (expr value h)
  | .emitSignal _ args, _, .emitSignal _ h => H.bind (H.put _) (H.bind (moreArguments args h) (H.put _))
  | .connectSignal signal [], _, .connectSignal _ .nil => H.connect signal H.noHandler
  | .connectSignal signal (e :: _), _, .connectSignal _ (.cons h _) => H.connect signal (expr e h)

theorem arguments : ∀ es {es'}, ExprsAlike text contents es es' → P (d.arguments es) (d.arguments es')
  | [], _, .nil => H.pure
  | e :: es, _, .cons h hs => H.bind (expr e h) (moreArguments es hs)

theorem moreArguments : ∀ es {es'}, ExprsAlike text contents es es' → P (d.moreArguments es) (d.moreArguments es')
  | [], _, .nil => H.pure
  | e :: es, _, .cons h hs => H.bind (H.put _) (H.bind (expr e h) (moreArguments es hs))
end

variable {e e' k k' : Expr}

theorem between (before : String) (h : ExprAlike text contents e e') (after : String) :
    P (d.between before e after) (d.between before e' after) :=
  H.bind (H.put _) (H.bind (H.expr e h) (H.put _))

theorem assignment (h : ExprAlike text contents e e') : P (d.assignment e) (d.assignment e') :=
  H.bind (H.put _) (H.expr e h)

theorem arrayItem (h : ExprAlike text contents e e') : P (d.arrayItem e) (d.arrayItem e') :=
  H.bind (H.expr e h) (H.put _)

theorem dictionaryItem (hk : ExprAlike text contents k k') (h : ExprAlike text contents e e') :
    P (d.dictionaryItem k e) (d.dictionaryItem k' e') :=
  H.bind (H.put _) <| H.bind (H.expr k hk) <| H.bind (H.put _) <| H.bind (H.expr e h) (H.put _)

theorem returnHead (h : ExprAlike text contents e e') : P (d.returnHead e) (d.returnHead e') :=
  H.bind (H.put _) (H.expr e h)

/-- The start of a choice, for which a chain of comparisons opens a page. -/
theorem matchHead (byJump : Bool) (h : byJump = false → P Page.openPage Page.openPage) :
    P (d.matchHead byJump) (d.matchHead byJump) := by
  cases byJump with
  | true => exact H.put _
  | false => exact H.bind (h rfl) (H.put _)

theorem matchCase (byJump : Bool) {comparison comparison' code code' : String}
    {pattern pattern' guard guard' : Option Expr} (hc : text comparison comparison')
    (hp : InitAlike text contents pattern pattern') (hg : InitAlike text contents guard guard')
    (hcode : text code code') :
    P (d.matchCase byJump comparison pattern guard code) (d.matchCase byJump comparison' pattern' guard' code') := by
  refine ite ?_ ?_
  · cases hp with
    | none => exact H.bind (H.put _) (H.write (H.jump hcode))
    | some hp =>
      refine H.bind (H.between _ hp _) ?_
      cases hg with
      | none => exact H.write (H.jump hcode)
      | some hg => exact H.bind (H.between _ hg _) (H.write (H.jump hcode))
  · cases hp with
    | none => exact H.bind (H.put _) (H.write hcode)
    | some hp =>
      refine H.bind (H.write hc) (H.bind (H.expr _ hp) ?_)
      cases hg with
      | none => exact H.bind (H.put _) (H.write hcode)
      | some hg => exact H.bind (H.put _) (H.bind (H.expr _ hg) (H.bind (H.put _) (H.write hcode)))

end Dialect.Writes

namespace Dialect.Has

variable {d : Dialect τ} {P : PageM τ Unit → Prop} (H : d.Has P)

include H

theorem expr (e : Expr) : P (d.expr e) := Writes.expr H e (.refl H.same H.same e)

theorem between (before : String) (e : Expr) (after : String) : P (d.between before e after) :=
  Writes.between H before (.refl H.same H.same e) after

theorem assignment (e : Expr) : P (d.assignment e) := Writes.assignment H (.refl H.same H.same e)

theorem arrayItem (e : Expr) : P (d.arrayItem e) := Writes.arrayItem H (.refl H.same H.same e)

theorem dictionaryItem (k e : Expr) : P (d.dictionaryItem k e) :=
  Writes.dictionaryItem H (.refl H.same H.same k) (.refl H.same H.same e)

theorem returnHead (e : Expr) : P (d.returnHead e) := Writes.returnHead H (.refl H.same H.same e)

theorem matchCase (byJump : Bool) (comparison : String) (pattern guard : Option Expr) (code : String) :
    P (d.matchCase byJump comparison pattern guard code) :=
  Writes.matchCase H byJump rfl (.refl H.same H.same _) (.refl H.same H.same _) rfl

end Dialect.Has

end GdScribe
