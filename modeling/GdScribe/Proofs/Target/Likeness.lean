import GdScribe.Proofs.Table
import GdScribe.Proofs.Target.Writes
import GdScribe.Target.CSharp.Writer

/-!
# What two targets write alike

Two requests that differ in texts only make a target do the same, up to such texts. This is said once,
for any relation between actions that the few actions have from which a target is made.

* `Likeness`: such a relation between actions.

Principal result: `CSharp.serve_alike`. The code of an accessor is searched for the name of its property, so it
has to be the same on both sides.
-/

namespace GdScribe

open List
open Read (ExprAlike InitAlike InitsAlike PropertyAlike AccessorAlike MethodAlike RequestAlike)

/-- The faults of a target, but for a missing entry. -/
def Fault.isPlain : Fault → Bool
  | .endless | .unknownEntry _ => false
  | _ => true

variable {τ α β : Type}

/-- A relation between actions on pages. What a target knows besides its pages is related by `own`. -/
structure Likeness (τ : Type) (text : String → String → Prop) (own : τ → τ → Prop) where
  Holds : {α : Type} → (α → α → Prop) → PageM τ α → PageM τ α → Prop
  /-- Whether another page may be gone on with. -/
  turns : Prop
  /-- Whether scopes may be opened and closed. -/
  scopes : Prop
  /-- How what the target knows may change. -/
  owns : τ → τ → Prop
  pure : ∀ {α : Type} {R : α → α → Prop} {a b}, R a b → Holds R (Pure.pure a) (Pure.pure b)
  throw : ∀ {α : Type} {R : α → α → Prop} {e : Fault}, e.isPlain = true →
    Holds R (MonadExcept.throw e) (MonadExcept.throw e)
  bind : ∀ {α β : Type} {Q : α → α → Prop} {R : β → β → Prop} {x y f g}, (∀ a, Q a a) →
    Holds Q x y → (∀ a b, Q a b → Holds R (f a) (g b)) → Holds R (x >>= f) (y >>= g)
  write : ∀ {a b}, text a b → Holds Eq (Page.write a) (Page.write b)
  trace : ∀ a b, Holds Eq (Page.trace a) (Page.trace b)
  shift : scopes → ∀ n, Holds Eq (Page.shift n) (Page.shift n)
  level : Holds Eq Page.level Page.level
  known : Holds own Page.own Page.own
  learn : ∀ {f g}, (∀ a, owns a (f a)) → (∀ a b, own a b → own (f a) (g b)) →
    Holds Eq (Page.modifyOwn f) (Page.modifyOwn g)
  classes : Holds Table.Alike Page.classes Page.classes
  page : Holds text (do return (← get).pages.page) (do return (← get).pages.page)
  onPage : ∀ {x y}, Holds Eq x y → Holds text (Page.onPage x) (Page.onPage y)
  openPage : turns → Holds Eq Page.openPage Page.openPage
  takePage : turns → Holds text Page.takePage Page.takePage
  flush : turns → Holds Eq Page.flush Page.flush

namespace Likeness

variable {text contents : String → String → Prop} {own : τ → τ → Prop} (K : Likeness τ text own)

variable {f : α → PageM τ β}

theorem andThen {R : β → β → Prop} {x y : PageM τ α} {g : α → PageM τ β} (h : K.Holds Eq x y)
    (hf : ∀ a, K.Holds R (f a) (g a)) : K.Holds R (x >>= f) (y >>= g) :=
  K.bind (fun _ => rfl) h fun a _ hab => hab ▸ hf a

theorem ite {R : α → α → Prop} {c d : Prop} [Decidable c] [Decidable d] {x x' y y' : PageM τ α}
    (hc : c ↔ d) (h : K.Holds R x y) (h' : K.Holds R x' y') :
    K.Holds R (if c then x else x') (if d then y else y') := by
  by_cases hd : d
  · rw [if_pos hd, if_pos (hc.mpr hd)]
    exact h
  · rw [if_neg hd, if_neg fun hc' => hd (hc.mp hc')]
    exact h'

theorem mapM (hf : ∀ a, K.Holds Eq (f a) (f a)) : ∀ as : List α, K.Holds Eq (as.mapM f) (as.mapM f)
  | [] => by rw [mapM_nil]; exact K.pure rfl
  | a :: as => by
    rw [mapM_cons]
    exact K.andThen (hf a) fun _ => K.andThen (mapM hf as) fun _ => K.pure rfl

theorem enumerators {d : Dialect τ} (H : d.Writes text contents (K.Holds Eq))
    (append : ∀ {a b a' b'}, text a b → text a' b' → text (a ++ a') (b ++ b')) {s t : Table Expr}
    (h : InitsAlike text contents s t) (vs : List String) :
    K.Holds (Forall₂ text) (d.enumerators s vs) (d.enumerators t vs) := by
  have refl (as : List String) : Forall₂ text as as := forall₂_same.mpr fun a _ => H.same a
  induction vs with
  | nil => exact K.pure .nil
  | cons v vs ih =>
    unfold Dialect.enumerators
    have rest {a b : String} (hab : text a b) : K.Holds (Forall₂ text)
        (do return a :: (← d.enumerators s vs)) (do return b :: (← d.enumerators t vs)) :=
      K.bind refl ih fun _ _ h => K.pure (.cons hab h)
    have hv := h.find? v
    generalize s.find? v = a, t.find? v = b at hv ⊢
    cases hv with
    | none => exact K.andThen (K.pure rfl) fun _ => rest (H.same _)
    | some he =>
      refine K.bind H.same (K.onPage (H.expr _ he)) fun _ _ hab => ?_
      exact K.bind H.same (K.pure (append (H.same _) hab)) fun _ _ hab => rest hab

end Likeness

theorem Dialect.Writes.eachListed {d : Dialect τ} {text contents : String → String → Prop}
    {P : PageM τ Unit → PageM τ Unit → Prop} (H : d.Writes text contents P)
    {act act' : α → PageM τ Unit} (h : ∀ a, P (act a) (act' a)) (as : List α) :
    P (d.eachListed act as) (d.eachListed act' as) := by
  have after (as : List α) : P (d.eachAfterComma act as) (d.eachAfterComma act' as) := by
    induction as with
    | nil => exact H.pure
    | cons a as ih => exact H.bind (H.put _) (H.bind (h a) ih)
  cases as with
  | nil => exact H.pure
  | cons a as => exact H.bind (h a) (after as)

/-- The requests after which another page may be written to. -/
def Request.turns : Request → Bool
  | .openPage | .endProperty _ _ | .endScript => true
  | .property _ accessors => accessors
  | .matchHead byJump => !byJump
  | _ => false

/-- The requests that open or close a scope. -/
def Request.scopes : Request → Bool
  | .indent | .dedent | .openScope | .closeScope | .defineClass _ _ _ _ | .endProperty _ _ | .endScript => true
  | .property _ accessors => accessors
  | .matchSubject byJump => byJump
  | _ => false

namespace CSharp

open Target

/-- A relation between texts that the edits of the target respect. `result` relates finished scripts. -/
structure Wording (text contents result : String → String → Prop) : Prop where
  refl : ∀ a, text a a
  contents_refl : ∀ a, contents a a
  append : ∀ {a b a' b'}, text a b → text a' b' → text (a ++ a') (b ++ b')
  isEmpty : ∀ {a b}, text a b → a.isEmpty = b.isEmpty
  indented : ∀ n {a b}, text a b → text (Page.indented n a) (Page.indented n b)
  string : ∀ {a b}, contents a b → text (stringLiteral a) (stringLiteral b)
  first : ∀ {a b r r'}, text a b → text r r' →
    text (Text.replaceFirst a "\x7b" r) (Text.replaceFirst b "\x7b" r')
  close : ∀ {a b r r'}, text a b → text r r' → text (closeWith a r) (closeWith b r')
  finished : ∀ {a b}, text a b → result (scriptHeader ++ tidy maxLineEnds a) (scriptHeader ++ tidy maxLineEnds b)
  result_refl : ∀ a, result a a

theorem Wording.eq : Wording Eq Eq Eq where
  refl _ := rfl
  contents_refl _ := rfl
  append h h' := by rw [h, h']
  isEmpty h := by rw [h]
  indented _ _ _ h := by rw [h]
  string h := by rw [h]
  first h h' := by rw [h, h']
  close h h' := by rw [h, h']
  finished h := by rw [h]
  result_refl _ := rfl

/-- States of the target that differ in texts. -/
structure StateAlike (text result : String → String → Prop) (a b : State) : Prop where
  className : a.className = b.className
  onready : Table.Rel (List.Forall₂ text) a.onready b.onready
  unnamedEnums : a.unnamedEnums = b.unnamedEnums
  initText : text a.initText b.initText
  result : result a.result b.result

namespace Wording

variable {text contents result : String → String → Prop} (W : Wording text contents result)

include W

theorem lines_refl (as : List String) : Forall₂ text as as := forall₂_same.mpr fun a _ => W.refl a

theorem state_refl (a : State) : StateAlike text result a a :=
  ⟨rfl, forall₂_same.mpr fun e _ => ⟨rfl, W.lines_refl e.2⟩, rfl, W.refl _, W.result_refl _⟩

theorem expr_refl (e : Expr) : ExprAlike text contents e e := .refl W.refl W.contents_refl e

theorem inits_refl (t : Table Expr) : InitsAlike text contents t t := .refl W.refl W.contents_refl _

theorem init_refl (e : Option Expr) : InitAlike text contents e e := .refl W.refl W.contents_refl e

theorem property_refl (p : Property) : PropertyAlike text contents p p := ⟨rfl, rfl, W.init_refl _, rfl, rfl, rfl⟩

theorem accessors_refl (as : List Accessor) : Forall₂ (AccessorAlike text) as as :=
  forall₂_same.mpr fun a _ => .refl W.refl a

theorem method_refl (m : Method) : MethodAlike text contents m m :=
  ⟨rfl, rfl, W.inits_refl _, rfl, W.refl _, rfl, rfl⟩

variable {a b : String} {as bs : List String}

theorem between (before after : String) (h : text a b) : text (before ++ a ++ after) (before ++ b ++ after) :=
  W.append (W.append (W.refl _) h) (W.refl _)

theorem join (h : Forall₂ text as bs) : text (String.join as) (String.join bs) := by
  have from_ {a b : String} (hab : text a b) : text (as.foldl (· ++ ·) a) (bs.foldl (· ++ ·) b) := by
    induction h generalizing a b with
    | nil => exact hab
    | cons h _ ih => exact ih (W.append hab h)
  exact from_ (W.refl "")

theorem intercalate (h : Forall₂ text as bs) (sep : String) :
    text (String.intercalate sep as) (String.intercalate sep bs) := by
  induction h with
  | nil => exact W.refl _
  | cons h hs ih =>
    cases hs with
    | nil => simpa only [String.intercalate_singleton] using h
    | cons _ _ =>
      rw [String.intercalate_cons_cons, String.intercalate_cons_cons]
      exact W.append (W.append h (W.refl _)) ih

theorem lambdaBody (h : text a b) : text (Dialect.lambdaBody a) (Dialect.lambdaBody b) :=
  W.close (W.first h (W.refl _)) (W.refl _)

theorem withFirstStatements (n : Int) (hs : Forall₂ text as bs) (h : text a b) :
    text (Dialect.withFirstStatements n as a) (Dialect.withFirstStatements n bs b) := by
  refine W.first h (W.append (W.refl _) (W.join ?_))
  induction hs with
  | nil => exact .nil
  | cons h _ ih => exact .cons (W.between _ _ h) ih

omit W in
theorem delay {o o' : State} (h : StateAlike text result o o') (hab : text a b) :
    StateAlike text result (o.delay a) (o'.delay b) := by
  refine { h with onready := ?_ }
  unfold State.delay
  rw [h.className]
  refine h.onready.put _ ?_
  have ho := h.onready.find? o'.className
  generalize o.onready.find? o'.className = as, o'.onready.find? o'.className = bs at ho ⊢
  cases ho with
  | none => exact .cons hab .nil
  | some hs => exact rel_append hs (.cons hab .nil)

end Wording

section alike

variable {text contents result : String → String → Prop} (W : Wording text contents result)
variable (K : Likeness State text (StateAlike text result)) (s : Settings)

include W

variable {a b : String}

theorem put_alike (h : text a b) : K.Holds Eq (put a) (put b) :=
  K.andThen K.level fun n => K.andThen (K.write (W.indented n h)) fun _ => K.trace ..

theorem put_same (a : String) : K.Holds Eq (put a) (put a) := put_alike W K (W.refl a)

theorem putThen {β : Type} {R : β → β → Prop} {x y : SharpM β} (h : K.Holds R x y) :
    K.Holds R (put a >>= fun _ => x) (put a >>= fun _ => y) := K.andThen (put_same W K a) fun _ => h

theorem openScope_alike (scopes : K.scopes) : K.Holds Eq openScope openScope :=
  K.andThen (K.trace ..) fun _ => putThen W K <| K.shift scopes _

theorem closeScope_alike (scopes : K.scopes) : K.Holds Eq closeScope closeScope :=
  K.andThen (K.trace ..) fun _ => K.andThen (K.shift scopes _) fun _ => put_same W K _

omit W in
theorem typeText_alike (type : Ty) : K.Holds Eq (typeText s type) (typeText s type) := by
  refine K.bind (fun _ _ => rfl) K.classes fun t u h => K.pure ?_
  unfold typeName
  simp only [Table.Alike.contains h]

omit W in
theorem paramText_alike (p : String × Ty) : K.Holds Eq (paramText s p) (paramText s p) :=
  K.andThen (typeText_alike K s p.2) fun _ => K.pure rfl

theorem putListed_alike {f : α → SharpM String} (h : ∀ a, K.Holds Eq (f a) (f a)) :
    ∀ as, K.Holds Eq (putListed f as) (putListed f as)
  | [] => K.pure rfl
  | [a] => K.andThen (h a) fun _ => put_same W K _
  | a :: b :: as => K.andThen (h a) fun _ => putThen W K <|
      putThen W K <| putListed_alike h (b :: as)

theorem dialect_alike : (dialect s).Writes text contents (K.Holds Eq) where
  pure := K.pure rfl
  noHandler := K.throw rfl
  bind hx hy := K.andThen hx fun _ => hy
  same := W.refl
  string := W.string
  jump h := W.close h (W.refl _)
  write := K.write
  put := put_same W K
  array h := putThen W K <| K.andThen (put_alike W K h) fun _ => put_same W K _
  dictionary h := putThen W K <| K.andThen (put_alike W K h) fun _ => put_same W K _
  lambda params _ _ h := putThen W K <|
    K.andThen (putListed_alike W K (paramText_alike K s) params.entries) fun _ =>
    putThen W K <| K.write (W.lambdaBody h)
  name role _ := by
    cases role with
    | singleton => exact K.andThen (typeText_alike K s _) fun _ => put_same W K _
    | _ => exact put_same W K _
  access _ := put_same W K _
  assign _ _ _ _ h := putThen W K <| h
  isType _ _ _ h := K.andThen h fun _ => K.andThen (typeText_alike K s _) fun _ => put_same W K _
  connect _ _ _ h := putThen W K <| h

theorem defineClass_alike (scopes : K.scopes) (name base : String) (isTool isMain : Bool) :
    K.Holds Eq (defineClass s name base isTool isMain) (defineClass s name base isTool isMain) := by
  have tail : K.Holds Eq (do
      put ("public partial class " ++ name ++ " : " ++ (← typeText s (some base)))
      openScope
      put "\n") (do
      put ("public partial class " ++ name ++ " : " ++ (← typeText s (some base)))
      openScope
      put "\n") :=
    K.andThen (typeText_alike K s _) fun _ => putThen W K <|
      K.andThen (openScope_alike W K scopes) fun _ => put_same W K _
  have line (c : Bool) (a : String) {x : SharpM Unit} (h : K.Holds Eq x x) :
      K.Holds Eq (if c then put a >>= fun _ => x else x) (if c then put a >>= fun _ => x else x) :=
    K.ite .rfl (putThen W K <| h) h
  exact line isTool _ (line isMain _ tail)

variable (O : ∀ o o' : State, o'.result = o.result → K.owns o o')

include O in
theorem enumName_alike (name : String) : K.Holds Eq (enumName name) (enumName name) := by
  refine K.bind W.state_refl K.known fun o o' h => ?_
  dsimp only
  rw [h.unnamedEnums]
  exact K.ite .rfl (K.andThen (K.learn (fun _ => O _ _ rfl) fun _ _ h => { h with unnamedEnums := rfl })
    fun _ => K.pure rfl) (K.pure rfl)

include O in
theorem enumeration_alike (name : String) (values : Params) {t u : Table Expr} (h : InitsAlike text contents t u) :
    K.Holds Eq (enumeration s name values t) (enumeration s name values u) := by
  refine K.bind W.lines_refl (K.enumerators (dialect_alike W K s) W.append h _) fun _ _ hs => ?_
  refine K.andThen (enumName_alike W K O name) fun _ => put_alike W K ?_
  exact W.between _ _ (W.intercalate hs _)

omit W in
theorem exposure_alike (name : String) (override : Bool) :
    K.Holds Eq (exposure name override) (exposure name override) := by
  unfold exposure
  cases name.toList with
  | nil => exact K.throw (by decide)
  | cons c cs => exact K.pure rfl

theorem initialText_alike {e e' : Option Expr} (h : InitAlike text contents e e') :
    K.Holds text (initialText s e) (initialText s e') := by
  cases h with
  | none => exact K.pure (W.refl _)
  | some h => exact K.onPage ((dialect_alike W K s).assignment h)

variable {p q : Property}

include O in
theorem property_alike (h : PropertyAlike text contents p q) (accessors : Bool)
    (turns : accessors = true → K.turns) (scopes : accessors = true → K.scopes) :
    K.Holds Eq (property s p accessors) (property s q accessors) := by
  unfold property
  rw [h.name, h.type, h.constant, h.static, h.onready]
  refine K.andThen (exposure_alike K _ _) fun _ => K.andThen (typeText_alike K s _) fun _ =>
    putThen W K <| K.bind W.refl (initialText_alike W K s h.init) fun a b hab => ?_
  refine K.andThen (K.learn (fun o => O _ _ (by split <;> rfl)) fun o o' ho => ?_) fun _ => ?_
  · rw [h.init.isSome]
    split
    · exact { Wording.delay ho (W.append (W.refl _) hab) with initText := hab }
    · exact { ho with initText := hab }
  · split
    · next ha =>
      exact K.andThen (K.openPage (turns ha)) fun _ => K.andThen (openScope_alike W K (scopes ha)) fun _ =>
        put_same W K _
    · exact K.ite .rfl (K.write hab) (K.pure rfl)

theorem hasPrivate_alike (name : String) : K.Holds Eq (hasPrivate name) (hasPrivate name) := by
  let look : SharpM Bool := Page.classes >>= fun t => Page.own >>= fun o =>
    return (t.info o.className).members.contains (privateName name)
  show K.Holds Eq look look
  refine K.bind (fun _ _ => rfl) K.classes fun t u h => K.bind W.state_refl K.known fun o o' ho => ?_
  exact K.pure (by rw [ho.className, ClassTable.info_alike h])

theorem accessorCode_alike (name code : String) : K.Holds Eq (accessorCode name code) (accessorCode name code) := by
  refine K.andThen (hasPrivate_alike W K name) fun _ => K.ite .rfl (K.pure rfl) (K.ite .rfl (K.pure rfl) ?_)
  cases replacePattern code (pascal name) (privateName (pascal name)) with
  | ok code => exact K.pure rfl
  | error f => exact K.throw rfl

theorem getter_alike (name code : String) : K.Holds Eq (getter name code) (getter name code) :=
  putThen W K <| K.andThen (accessorCode_alike W K name code) fun _ =>
    K.write (W.refl _)

theorem setter_alike (name value code : String) : K.Holds Eq (setter name value code) (setter name value code) :=
  putThen W K <| K.andThen (accessorCode_alike W K name code) fun _ =>
    K.write (W.refl _)

theorem accessor_alike (h : p.name = q.name) (a : Accessor) : K.Holds Eq (accessor p a) (accessor q a) := by
  unfold accessor
  rw [h]
  cases a with
  | getterMethod m => exact put_same W K _
  | setterMethod m => exact put_same W K _
  | getter code => exact getter_alike W K ..
  | setter value code => exact setter_alike W K ..

theorem missingAccessor_alike (name : String) (hasSetter : Bool) :
    K.Holds Eq (missingAccessor name hasSetter) (missingAccessor name hasSetter) :=
  K.ite .rfl (K.andThen (getter_alike W K ..) fun _ => put_same W K _)
    (K.andThen (setter_alike W K ..) fun _ => put_same W K _)

theorem withField_alike (h : PropertyAlike text contents p q)
    (hab : text a b) : K.Holds text (withField s p a) (withField s q b) := by
  unfold withField
  rw [h.name, h.type]
  refine K.andThen (hasPrivate_alike W K _) fun _ => K.ite .rfl (K.pure hab) ?_
  refine K.andThen K.level fun _ => K.andThen (typeText_alike K s _) fun _ =>
    K.bind W.state_refl K.known fun o o' ho => K.pure (W.close hab ?_)
  exact W.append (W.append (W.refl _) ho.initText) (W.refl _)

theorem withMissing_alike (h : p.name = q.name) {as bs : List Accessor}
    (hs : Forall₂ (AccessorAlike text) as bs) (hab : text a b) :
    K.Holds text (withMissing p as a) (withMissing q bs b) := by
  have any (f : Accessor → Bool) (hf : ∀ a b, AccessorAlike text a b → f a = f b) : as.any f = bs.any f := by
    induction hs with
    | nil => rfl
    | cons h _ ih => rw [any_cons, any_cons, hf _ _ h, ih]
  have sets (a b : Accessor) (h : AccessorAlike text a b) : a.sets = b.sets := by cases h <;> rfl
  unfold withMissing
  rw [h, any _ sets, any _ fun a b h => congrArg not (sets a b h)]
  refine K.ite .rfl (K.pure hab) (K.bind W.refl (K.onPage (missingAccessor_alike W K ..)) ?_)
  exact fun _ _ h => K.pure (W.close hab (W.between _ _ h))

theorem endProperty_alike (turns : K.turns) (scopes : K.scopes) (h : PropertyAlike text contents p q)
    {as bs : List Accessor} (hs : Forall₂ (AccessorAlike text) as bs) :
    K.Holds Eq (endProperty s p as) (endProperty s q bs) := by
  have last : Option.Rel (AccessorAlike text) as.getLast? bs.getLast? := by
    induction hs with
    | nil => exact .none
    | cons h hs ih =>
      cases hs with
      | nil => exact .some h
      | cons _ _ => exact ih
  unfold endProperty
  generalize as.getLast? = a, bs.getLast? = b at last ⊢
  cases last with
  | none => exact K.throw rfl
  | @some a b hab =>
    have isMethod : a.isMethod = b.isMethod := by cases hab <;> rfl
    have closed : K.Holds Eq (closeAccessors a) (closeAccessors b) :=
      K.ite (by rw [isMethod]) (K.andThen (K.shift scopes (-1)) fun _ => put_same W K _) (K.pure rfl)
    refine K.andThen closed fun _ => K.bind W.refl (K.takePage turns) fun _ _ h1 => ?_
    refine K.bind W.refl (withField_alike W K s h h1) fun _ _ h2 => ?_
    exact K.bind W.refl (withMissing_alike W K h.name hs h2) fun _ _ h3 => K.write h3

theorem methodParam_alike {t u : Table Expr} (h : InitsAlike text contents t u) (p : String × Ty) :
    K.Holds Eq (methodParam s t p) (methodParam s u p) := by
  refine K.andThen (paramText_alike K s p) fun _ => putThen W K <| ?_
  have hp := h.find? p.1
  generalize t.find? p.1 = a, u.find? p.1 = b at hp ⊢
  cases hp with
  | none => exact K.pure rfl
  | some he => exact (dialect_alike W K s).assignment he

include O in
theorem method_alike {m n : Method} (h : MethodAlike text contents m n) : K.Holds Eq (method s m) (method s n) := by
  have code : K.Holds text (methodCode m) (methodCode n) :=
    K.ite (by rw [W.isEmpty h.code]) (K.onPage (put_same W K _)) (K.pure h.code)
  unfold method
  rw [h.name, h.params, h.returns, h.static, h.override]
  refine K.bind W.refl code fun a b hab => K.andThen (exposure_alike K _ _) fun _ =>
    K.andThen (typeText_alike K s _) fun _ => putThen W K <| ?_
  refine K.andThen ((dialect_alike W K s).eachListed (methodParam_alike W K s h.inits) _) fun _ => ?_
  refine putThen W K <| K.bind W.state_refl K.known fun o o' ho => ?_
  have waiting : Option.Rel (List.Forall₂ text)
      (if n.name = "_ready" then o.onready.find? o.className else none)
      (if n.name = "_ready" then o'.onready.find? o'.className else none) := by
    split
    · rw [ho.className]
      exact ho.onready.find? _
    · exact .none
  generalize (if n.name = "_ready" then o.onready.find? o.className else none) = as at waiting ⊢
  generalize (if n.name = "_ready" then o'.onready.find? o'.className else none) = bs at waiting ⊢
  cases waiting with
  | none => exact K.write hab
  | some hs =>
    refine K.andThen (K.learn (fun _ => O _ _ rfl) fun o o' ho => ?_) fun _ => K.andThen K.level fun _ =>
      K.write (W.withFirstStatements _ hs hab)
    rw [ho.className]
    exact ⟨rfl, ho.onready.erase _, ho.unnamedEnums, ho.initText, ho.result⟩

include O in
theorem endClass_alike (name : String) : K.Holds Eq (endClass s name) (endClass s name) := by
  refine K.bind W.state_refl K.known fun o o' ho => ?_
  exact K.ite (by rw [ho.onready.contains]) (method_alike W K s O (W.method_refl _)) (K.pure rfl)

theorem closeScopes_alike (scopes : K.scopes) (n : Nat) : K.Holds Eq (closeScopes n) (closeScopes n) := by
  induction n with
  | zero => exact K.pure rfl
  | succ n ih => exact K.andThen (closeScope_alike W K scopes) fun _ => ih

/-- The page of a script when all of it is written. -/
def lastPage (s : Settings) : SharpM String := do
  endClass s (← Page.own).className
  Page.flush
  closeScopes (← Page.level).toNat
  return (← get).pages.page

omit W in
theorem endScript_eq : endScript s = (do
    let page ← lastPage s
    Page.modifyOwn fun o => { o with result := scriptHeader ++ tidy maxLineEnds page }) := by
  simp only [endScript, lastPage, bind_assoc, pure_bind]

include O in
theorem lastPage_alike (turns : K.turns) (scopes : K.scopes) : K.Holds text (lastPage s) (lastPage s) := by
  refine K.bind W.state_refl K.known fun o o' ho => ?_
  rw [ho.className]
  exact K.andThen (endClass_alike W K s O _) fun _ => K.andThen (K.flush turns) fun _ =>
    K.andThen K.level fun _ => K.andThen (closeScopes_alike W K scopes _) fun _ => K.page

include O in
theorem endScript_alike (turns : K.turns) (scopes : K.scopes) (finishes : ∀ o o', K.owns o o') :
    K.Holds Eq (endScript s) (endScript s) := by
  rw [endScript_eq]
  exact K.bind W.refl (lastPage_alike W K s O turns scopes) fun _ _ h =>
    K.learn (fun _ => finishes _ _) fun _ _ ho => { ho with result := W.finished h }

/-- Whether the codes of accessors are the same in two requests. -/
def SameAccessors : Request → Request → Prop
  | .accessor _ a, .accessor _ b => a = b
  | _, _ => True

omit W in
theorem sameAccessors_refl (q : Request) : SameAccessors q q := by
  cases q <;> trivial

include O in
/-- **Requests that are alike are served alike.** -/
theorem serve_alike {q q' : Request} (h : RequestAlike text contents q q') (clear : SameAccessors q q')
    (turns : q.turns = true → K.turns) (finishes : q = .endScript → ∀ o o', K.owns o o')
    (scopes : q.scopes = true → K.scopes) : K.Holds Eq (serve s q) (serve s q') := by
  have D := dialect_alike W K s
  have declared {a b : Option Expr} (name : String) (h : InitAlike text contents a b) :
      K.Holds Eq (serve s (.localVariable "" name a)) (serve s (.localVariable "" name b)) := by
    refine putThen W K <| ?_
    cases h with
    | none => exact K.pure rfl
    | some h => exact D.assignment h
  have marked (name args : String) (member : Option String) {a b : String} (h : text a b) :
      K.Holds Eq (serve s (.marker name args member a)) (serve s (.marker name args member b)) := by
    refine putThen W K <| K.write ?_
    rw [W.isEmpty h]
    split
    · exact W.refl _
    · exact h
  cases h with
  | same q =>
    cases q with
    | indent | dedent => exact K.shift (scopes rfl) _
    | openPage => exact K.openPage (turns rfl)
    | openScope => exact openScope_alike W K (scopes rfl)
    | closeScope => exact closeScope_alike W K (scopes rfl)
    | enterClass name =>
      rw [serve]
      exact K.learn (fun _ => O _ _ rfl) fun _ _ ho => { ho with className := rfl }
    | defineClass name base isTool isMain => exact defineClass_alike W K s (scopes rfl) _ _ _ _
    | endClass name => exact endClass_alike W K s O _
    | endScript => exact endScript_alike W K s O (turns rfl) (scopes rfl) (finishes rfl)
    | enumeration name values inits => exact enumeration_alike W K s O _ _ (W.inits_refl _)
    | marker name args member spacing => exact marked _ _ _ (W.refl _)
    | property p accessors => exact property_alike W K s O (W.property_refl p) _ turns scopes
    | accessor p a => exact accessor_alike W K rfl a
    | endProperty p as =>
      exact endProperty_alike W K s (turns rfl) (scopes rfl) (W.property_refl p) (W.accessors_refl as)
    | localVariable type name init => exact declared name (W.init_refl _)
    | method m => exact method_alike W K s O (W.method_refl m)
    | signal name params => 
      exact K.andThen (K.mapM (paramText_alike K s) _) fun _ => putThen W K (put_same W K _)
    | assignment e => exact D.assignment (W.expr_refl e)
    | expr e => exact D.expr _ (W.expr_refl e)
    | arrayItem e => exact D.arrayItem (W.expr_refl e)
    | dictionaryItem k v => exact D.dictionaryItem (W.expr_refl k) (W.expr_refl v)
    | ifHead e | elifHead e | whileHead e | forHead _ _ e => exact D.between _ (W.expr_refl e) _
    | returnHead e => exact D.returnHead (W.expr_refl e)
    | matchHead byJump =>
      exact D.matchHead byJump fun h => K.openPage (turns (by rw [h]; rfl))
    | matchSubject byJump =>
      cases byJump with
      | true => exact K.andThen (D.put _) fun _ => openScope_alike W K (scopes rfl)
      | false => exact D.put _
    | matchCase byJump comparison pattern guard code =>
      exact D.matchCase byJump (W.refl _) (W.init_refl _) (W.init_refl _) (W.refl _)
    | _ => exact put_same W K _
  | enumeration name values h => exact enumeration_alike W K s O name values h
  | marker name args member h => exact marked name args member h
  | property accessors h => exact property_alike W K s O h accessors turns scopes
  | accessor h _ =>
    cases show _ = _ from clear
    exact accessor_alike W K h.name _
  | endProperty h hs => exact endProperty_alike W K s (turns rfl) (scopes rfl) h hs
  | localVariable type name h => exact declared name h
  | method h => exact method_alike W K s O h
  | assignment h => exact D.assignment h
  | expr h => exact D.expr _ h
  | arrayItem h => exact D.arrayItem h
  | dictionaryItem h h' => exact D.dictionaryItem h h'
  | ifHead h | elifHead h | whileHead h | forHead _ _ h => exact D.between _ h _
  | returnHead h => exact D.returnHead h
  | matchCase byJump hc hp hg hd => exact D.matchCase byJump hc hp hg hd

end alike

end CSharp

end GdScribe
