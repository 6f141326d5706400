import GdScribe.Script.Statement
import Mathlib.Data.List.Forall2

/-!
# Expressions and requests that differ in texts only

Two readers that are run side by side build the same expressions and send the same requests, up to
texts that were taken from pages and up to the contents of string literals.

* `ExprAlike`, `ExprsAlike`: expressions with the same shape, names and types.
* `RequestAlike`: requests of the same kind with such expressions and texts.

Principal results: `ExprAlike.refl`, `InitsAlike.put`, and `RequestAlike.eq` — where the texts are the same, so are
the requests.
-/

namespace GdScribe.Read

section

variable (text contents : String → String → Prop)

mutual
/-- Expressions that differ at most in taken texts and in contents of literals. -/
inductive ExprAlike : Expr → Expr → Prop
  | nothing : ExprAlike .nothing .nothing
  | literal (a : String) : ExprAlike (.literal a) (.literal a)
  | text {a b : String} (h : contents a b) : ExprAlike (.text a) (.text b)
  | array {a b : String} (h : text a b) : ExprAlike (.array a) (.array b)
  | dictionary {a b : String} (h : text a b) : ExprAlike (.dictionary a) (.dictionary b)
  | group {a b : Expr} (h : ExprAlike a b) : ExprAlike (.group a) (.group b)
  | node (path : String) : ExprAlike (.node path) (.node path)
  | lambda (params : Params) {a b : String} (h : text a b) : ExprAlike (.lambda params a) (.lambda params b)
  | name (role : NameRole) (n : String) : ExprAlike (.name role n) (.name role n)
  | unary (op : String) {a b : Expr} (h : ExprAlike a b) : ExprAlike (.unary op a) (.unary op b)
  | binary {a b a' b' : Expr} (op : String) (h : ExprAlike a b) (h' : ExprAlike a' b') :
    ExprAlike (.binary a op a') (.binary b op b')
  | isType {a b : Expr} (type : Ty) (h : ExprAlike a b) : ExprAlike (.isType a type) (.isType b type)
  | contains (negated : Bool) {a b a' b' : Expr} (itemType wholeType : Ty)
    (h : ExprAlike a b) (h' : ExprAlike a' b') :
    ExprAlike (.contains negated a itemType a' wholeType) (.contains negated b itemType b' wholeType)
  | choice {a b a' b' a'' b'' : Expr} (h : ExprAlike a b) (h' : ExprAlike a' b') (h'' : ExprAlike a'' b'') :
    ExprAlike (.choice a a' a'') (.choice b b' b'')
  | seq {a b a' b' : Expr} (h : ExprAlike a b) (h' : ExprAlike a' b') : ExprAlike (.seq a a') (.seq b b')
  | call (caller : Ty) (n : String) {as bs : List Expr} (h : ExprsAlike as bs) :
    ExprAlike (.call caller n as) (.call caller n bs)
  | construct (n : String) (type : Ty) {as bs : List Expr} (h : ExprsAlike as bs) :
    ExprAlike (.construct n type as) (.construct n type bs)
  | index {a b : Expr} (h : ExprAlike a b) : ExprAlike (.index a) (.index b)
  | access (a : Access) : ExprAlike (.access a) (.access a)
  | constant (n : String) : ExprAlike (.constant n) (.constant n)
  | assign (x : Access) (op : String) {a b : Expr} (h : ExprAlike a b) : ExprAlike (.assign x op a) (.assign x op b)
  | emitSignal (signal : String) {as bs : List Expr} (h : ExprsAlike as bs) :
    ExprAlike (.emitSignal signal as) (.emitSignal signal bs)
  | connectSignal (signal : String) {as bs : List Expr} (h : ExprsAlike as bs) :
    ExprAlike (.connectSignal signal as) (.connectSignal signal bs)

/-- Expressions in a row that are alike one by one. -/
inductive ExprsAlike : List Expr → List Expr → Prop
  | nil : ExprsAlike [] []
  | cons {a b : Expr} {as bs : List Expr} (h : ExprAlike a b) (hs : ExprsAlike as bs) : ExprsAlike (a :: as) (b :: bs)
end

/-- An expression that may be there on both sides or on none. -/
inductive InitAlike : Option Expr → Option Expr → Prop
  | none : InitAlike none none
  | some {a b : Expr} (h : ExprAlike text contents a b) : InitAlike (some a) (some b)

/-- Initial values under the same names in the same order. -/
inductive EntriesAlike : List (String × Expr) → List (String × Expr) → Prop
  | nil : EntriesAlike [] []
  | cons (n : String) {a b : Expr} {as bs : List (String × Expr)}
    (h : ExprAlike text contents a b) (hs : EntriesAlike as bs) :
    EntriesAlike ((n, a) :: as) ((n, b) :: bs)

/-- Tables of initial values under the same names in the same order. -/
def InitsAlike (s t : Table Expr) : Prop := EntriesAlike text contents s.entries t.entries

/-- Properties with the same name, type and flags. -/
structure PropertyAlike (p q : Property) : Prop where
  type : p.type = q.type
  name : p.name = q.name
  init : InitAlike text contents p.init q.init
  constant : p.constant = q.constant
  static : p.static = q.static
  onready : p.onready = q.onready

/-- Accessors of the same kind with the same names. -/
inductive AccessorAlike : Accessor → Accessor → Prop
  | getterMethod (m : String) : AccessorAlike (.getterMethod m) (.getterMethod m)
  | setterMethod (m : String) : AccessorAlike (.setterMethod m) (.setterMethod m)
  | getter {a b : String} (h : text a b) : AccessorAlike (.getter a) (.getter b)
  | setter (value : String) {a b : String} (h : text a b) : AccessorAlike (.setter value a) (.setter value b)

/-- Methods with the same name, parameters and flags. -/
structure MethodAlike (m n : Method) : Prop where
  name : m.name = n.name
  params : m.params = n.params
  inits : InitsAlike text contents m.inits n.inits
  returns : m.returns = n.returns
  code : text m.code n.code
  static : m.static = n.static
  override : m.override = n.override

/-- Requests of the same kind that differ at most in taken texts and contents of literals. -/
inductive RequestAlike : Request → Request → Prop
  | same (q : Request) : RequestAlike q q
  | enumeration (name : String) (values : Params) {s t : Table Expr} (h : InitsAlike text contents s t) :
    RequestAlike (.enumeration name values s) (.enumeration name values t)
  | marker (name args : String) (member : Option String) {a b : String} (h : text a b) :
    RequestAlike (.marker name args member a) (.marker name args member b)
  | property {p q : Property} (accessors : Bool) (h : PropertyAlike text contents p q) :
    RequestAlike (.property p accessors) (.property q accessors)
  | accessor {p q : Property} {a b : Accessor} (h : PropertyAlike text contents p q) (h' : AccessorAlike text a b) :
    RequestAlike (.accessor p a) (.accessor q b)
  | endProperty {p q : Property} {as bs : List Accessor} (h : PropertyAlike text contents p q)
    (h' : List.Forall₂ (AccessorAlike text) as bs) :
    RequestAlike (.endProperty p as) (.endProperty q bs)
  | localVariable (type name : String) {a b : Option Expr} (h : InitAlike text contents a b) :
    RequestAlike (.localVariable type name a) (.localVariable type name b)
  | method {m n : Method} (h : MethodAlike text contents m n) : RequestAlike (.method m) (.method n)
  | assignment {a b : Expr} (h : ExprAlike text contents a b) : RequestAlike (.assignment a) (.assignment b)
  | expr {a b : Expr} (h : ExprAlike text contents a b) : RequestAlike (.expr a) (.expr b)
  | arrayItem {a b : Expr} (h : ExprAlike text contents a b) : RequestAlike (.arrayItem a) (.arrayItem b)
  | dictionaryItem {a b a' b' : Expr} (h : ExprAlike text contents a b) (h' : ExprAlike text contents a' b') :
    RequestAlike (.dictionaryItem a a') (.dictionaryItem b b')
  | ifHead {a b : Expr} (h : ExprAlike text contents a b) : RequestAlike (.ifHead a) (.ifHead b)
  | elifHead {a b : Expr} (h : ExprAlike text contents a b) : RequestAlike (.elifHead a) (.elifHead b)
  | whileHead {a b : Expr} (h : ExprAlike text contents a b) : RequestAlike (.whileHead a) (.whileHead b)
  | forHead (name type : String) {a b : Expr} (h : ExprAlike text contents a b) :
    RequestAlike (.forHead name type a) (.forHead name type b)
  | returnHead {a b : Expr} (h : ExprAlike text contents a b) : RequestAlike (.returnHead a) (.returnHead b)
  | matchCase (byJump : Bool) {a b : String} {p q g h : Option Expr} {c d : String}
    (hc : text a b) (hp : InitAlike text contents p q) (hg : InitAlike text contents g h)
    (hd : text c d) :
    RequestAlike (.matchCase byJump a p g c) (.matchCase byJump b q h d)

end

section

variable {text contents : String → String → Prop}

section

variable (htext : ∀ a, text a a) (hcontents : ∀ a, contents a a)

include htext hcontents

set_option linter.unusedSectionVars false in
mutual
theorem ExprAlike.refl : ∀ e, ExprAlike text contents e e
  | .nothing => .nothing
  | .literal a => .literal a
  | .text a => .text (hcontents a)
  | .array a => .array (htext a)
  | .dictionary a => .dictionary (htext a)
  | .group e => .group (ExprAlike.refl e)
  | .node p => .node p
  | .lambda ps a => .lambda ps (htext a)
  | .name r n => .name r n
  | .unary op e => .unary op (ExprAlike.refl e)
  | .binary a op b => .binary op (ExprAlike.refl a) (ExprAlike.refl b)
  | .isType e t => .isType t (ExprAlike.refl e)
  | .contains n i t w u => .contains n t u (ExprAlike.refl i) (ExprAlike.refl w)
  | .choice c a b =>
    .choice (ExprAlike.refl c) (ExprAlike.refl a) (ExprAlike.refl b)
  | .seq a b => .seq (ExprAlike.refl a) (ExprAlike.refl b)
  | .call c n as => .call c n (ExprsAlike.refl as)
  | .construct n t as => .construct n t (ExprsAlike.refl as)
  | .index e => .index (ExprAlike.refl e)
  | .access a => .access a
  | .constant n => .constant n
  | .assign a op e => .assign a op (ExprAlike.refl e)
  | .emitSignal s as => .emitSignal s (ExprsAlike.refl as)
  | .connectSignal s as => .connectSignal s (ExprsAlike.refl as)

theorem ExprsAlike.refl : ∀ es, ExprsAlike text contents es es
  | [] => .nil
  | e :: es => .cons (ExprAlike.refl e) (ExprsAlike.refl es)
end

theorem InitAlike.refl : ∀ e, InitAlike text contents e e
  | .none => .none
  | .some e => .some (ExprAlike.refl htext hcontents e)

theorem EntriesAlike.refl : ∀ es, EntriesAlike text contents es es
  | [] => .nil
  | (n, e) :: es => .cons n (ExprAlike.refl htext hcontents e) (refl es)

end

theorem AccessorAlike.refl (htext : ∀ a, text a a) : ∀ a, AccessorAlike text a a
  | .getterMethod m => .getterMethod m
  | .setterMethod m => .setterMethod m
  | .getter a => .getter (htext a)
  | .setter v a => .setter v (htext a)

theorem ExprsAlike.append {as bs as' bs' : List Expr} (h : ExprsAlike text contents as bs)
    (h' : ExprsAlike text contents as' bs') : ExprsAlike text contents (as ++ as') (bs ++ bs') := by
  induction as generalizing bs with
  | nil => cases h; exact h'
  | cons a as ih =>
    cases h with
    | cons ha has => exact .cons ha (ih has)

theorem ExprsAlike.reverse {as bs : List Expr} (h : ExprsAlike text contents as bs) :
    ExprsAlike text contents as.reverse bs.reverse := by
  induction as generalizing bs with
  | nil => cases h; exact .nil
  | cons a as ih =>
    cases h with
    | cons ha has =>
      simp only [List.reverse_cons]
      exact (ih has).append (.cons ha .nil)

theorem InitAlike.isSome {a b : Option Expr} (h : InitAlike text contents a b) : a.isSome = b.isSome := by
  cases h <;> rfl

theorem InitsAlike.put {s t : Table Expr} (h : InitsAlike text contents s t) (n : String)
    {a b : Expr} (hab : ExprAlike text contents a b) : InitsAlike text contents (s.put n a) (t.put n b) := by
  obtain ⟨as⟩ := s
  obtain ⟨bs⟩ := t
  show EntriesAlike text contents (Table.set n a as) (Table.set n b bs)
  change EntriesAlike text contents as bs at h
  induction h with
  | nil => exact .cons n hab .nil
  | cons m h hs ih =>
    simp only [Table.set]
    split
    · exact .cons m hab hs
    · exact .cons m h ih

theorem InitsAlike.find? {s t : Table Expr} (h : InitsAlike text contents s t) (n : String) :
    InitAlike text contents (s.find? n) (t.find? n) := by
  obtain ⟨as⟩ := s
  obtain ⟨bs⟩ := t
  show InitAlike text contents (Table.find n as) (Table.find n bs)
  change EntriesAlike text contents as bs at h
  induction h with
  | nil => exact .none
  | cons m h hs ih =>
    simp only [Table.find]
    split
    · exact .some h
    · exact ih

end

/-! ## Texts that are the same -/

mutual
theorem ExprAlike.eq {a b : Expr} : ExprAlike Eq Eq a b → a = b
  | .nothing | .literal _ | .node _ | .name _ _ | .access _ | .constant _ => rfl
  | .text h | .array h | .dictionary h | .lambda _ h => by rw [h]
  | .group h | .unary _ h | .isType _ h | .index h | .assign _ _ h => by rw [h.eq]
  | .binary _ h h' | .contains _ _ _ h h' | .seq h h' => by rw [h.eq, h'.eq]
  | .choice h h' h'' => by rw [h.eq, h'.eq, h''.eq]
  | .call _ _ h | .construct _ _ h | .emitSignal _ h | .connectSignal _ h => by rw [h.eq]

theorem ExprsAlike.eq {as bs : List Expr} : ExprsAlike Eq Eq as bs → as = bs
  | .nil => rfl
  | .cons h hs => by rw [h.eq, hs.eq]
end

theorem InitAlike.eq {a b : Option Expr} : InitAlike Eq Eq a b → a = b
  | .none => rfl
  | .some h => by rw [h.eq]

theorem EntriesAlike.eq {as bs : List (String × Expr)} : EntriesAlike Eq Eq as bs → as = bs
  | .nil => rfl
  | .cons _ h hs => by rw [h.eq, hs.eq]

theorem InitsAlike.eq : ∀ {s t : Table Expr}, InitsAlike Eq Eq s t → s = t
  | ⟨_⟩, ⟨_⟩, h => congrArg _ (EntriesAlike.eq h)

theorem PropertyAlike.eq {p q : Property} (h : PropertyAlike Eq Eq p q) : p = q := by
  exact (Property.mk.injEq ..).mpr ⟨h.type, h.name, h.init.eq, h.constant, h.static, h.onready⟩

theorem AccessorAlike.eq {a b : Accessor} : AccessorAlike Eq a b → a = b
  | .getterMethod _ | .setterMethod _ => rfl
  | .getter h | .setter _ h => by rw [h]

theorem MethodAlike.eq {m n : Method} (h : MethodAlike Eq Eq m n) : m = n := by
  exact (Method.mk.injEq ..).mpr ⟨h.name, h.params, h.inits.eq, h.returns, h.code, h.static, h.override⟩

theorem AccessorAlike.all_eq {as bs : List Accessor} (h : List.Forall₂ (AccessorAlike Eq) as bs) : as = bs :=
  List.forall₂_eq_eq_eq ▸ h.imp fun _ _ => eq

theorem RequestAlike.eq {q q' : Request} : RequestAlike Eq Eq q q' → q = q'
  | .same _ => rfl
  | .marker _ _ _ h => by rw [h]
  | .enumeration _ _ h | .property _ h | .localVariable _ _ h | .method h | .assignment h | .expr h | .arrayItem h
  | .ifHead h | .elifHead h | .whileHead h | .forHead _ _ h | .returnHead h => by rw [h.eq]
  | .accessor h h' | .dictionaryItem h h' => by rw [h.eq, h'.eq]
  | .endProperty h h' => by rw [h.eq, AccessorAlike.all_eq h']
  | .matchCase _ hc hp hg hd => by rw [hc, hp.eq, hg.eq, hd]

end GdScribe.Read
