import GdScribe.Proofs.Reader.Moves
import GdScribe.Proofs.Target.Likeness
import GdScribe.Target.Collect
import GdScribe.Target.CPlusPlus.Writer

/-!
# The manners of the targets

What the requests of a reader can do to a desk, and how they can fail. A manner is shown to fit the
few actions from which the targets are made; that their requests fit it then follows once and for all.

* `Manner`: what may become of a desk, and which faults may arise. Only a reader can fail for want of
  rounds, and only C++ for want of an entry, so all other faults are allowed.
* `PageManner`: a manner that allows all that is added to the page that is written to, and all that is
  noted of it. If it also allows to go on with another page, it is one that `Turns`.
* `PageManner.likeness`: being allowed is a relation between actions, so what a target writes alike is
  allowed.

Principal results: `Collect.serve_allowed`, `CSharp.serve_allowed` and `CPlusPlus.serve_allowed`.
-/

namespace GdScribe

variable {σ τ α β : Type}

/-- What actions at a desk may do. -/
structure Manner (σ : Type) where
  /-- What may become of the desk. -/
  change : Desk σ → Desk σ → Prop
  /-- The faults that may arise, and what may have become of the desk then. -/
  fails : Fault → Desk σ → Desk σ → Prop
  refl : ∀ d, change d d
  trans : ∀ {a b c}, change a b → change b c → change a c
  fault : ∀ e d, e.isPlain = true → fails e d d
  trans_fails : ∀ {e a b c}, change a b → fails e b c → fails e a c

/-- The manner of actions that change a desk in some way only, even if they fail. -/
def Manner.always (R : Desk σ → Desk σ → Prop) (refl : ∀ d, R d d) (trans : ∀ {a b c}, R a b → R b c → R a c) :
    Manner σ := ⟨R, fun _ => R, refl, trans, fun _ d _ => refl d, trans⟩

/-- The manner of actions that change a desk in some way only, if they end well. -/
def Manner.ending (R : Desk σ → Desk σ → Prop) (refl : ∀ d, R d d) (trans : ∀ {a b c}, R a b → R b c → R a c) :
    Manner σ := ⟨R, fun _ _ _ => True, refl, trans, fun _ _ _ => trivial, fun _ _ => trivial⟩

/-- An action that fits a manner, whether it ends well or not. -/
def Manner.Allows (M : Manner σ) (x : DeskM σ α) : Prop := ∀ d, match x d with
    | .ok _ d' => M.change d d'
    | .error e d' => M.fails e d d'

namespace Manner.Allows

variable {M : Manner σ}

theorem pure (a : α) : M.Allows (pure a : DeskM σ α) := M.refl

theorem throw {e : Fault} (h : e.isPlain = true) : M.Allows (throw e : DeskM σ α) :=
  fun d => M.fault e d h

variable {x : DeskM σ α} {f : α → DeskM σ β}

theorem bind (hx : M.Allows x) (hf : ∀ a, M.Allows (f a)) : M.Allows (x >>= f) := by
  intro d
  have h := hx d
  rw [Read.bind_apply]
  cases hxd : x d with
  | error e d' => rw [hxd] at h; exact h
  | ok a d' =>
    rw [hxd] at h
    have h' := hf a d'
    dsimp only
    cases hfd : f a d' with
    | ok b d'' => rw [hfd] at h'; exact M.trans h h'
    | error e d'' => rw [hfd] at h'; exact M.trans_fails h h'

theorem get : M.Allows (get : DeskM σ (Desk σ)) := M.refl

theorem ite {c : Prop} [Decidable c] {y : DeskM σ α} (hx : M.Allows x) (hy : M.Allows y) :
    M.Allows (if c then x else y) := by
  split
  · exact hx
  · exact hy

theorem mapM (hf : ∀ a, M.Allows (f a)) : ∀ as : List α, M.Allows (as.mapM f)
  | [] => by rw [List.mapM_nil]; exact pure _
  | a :: as => by
    rw [List.mapM_cons]
    exact (hf a).bind fun _ => (mapM hf as).bind fun _ => pure _

theorem ok (h : M.Allows x) {d d' : Desk σ} {a : α} (hx : x d = .ok a d') : M.change d d' := by
  have hd := h d
  rw [hx] at hd
  exact hd

/-- What becomes of a desk, if it is the same for actions that end well and for those that do not. -/
theorem endState (h : M.Allows x) (hf : ∀ e d d', M.fails e d d' → M.change d d') (d : Desk σ) :
    M.change d (Read.endState (x d)) := by
  have hd := h d
  cases hx : x d with
  | ok a d' => rw [hx] at hd; exact hd
  | error e d' => rw [hx] at hd; exact hf _ _ _ hd

end Manner.Allows

/-! ## Pages -/

/-- Pages to which something was added at the end of the page that is written to; the pages below are
as before. -/
def Pages.Adds (p p' : Pages τ) : Prop := p'.below = p.below ∧ ∃ text, p'.page = p.page ++ text

theorem Pages.Adds.of_eq {p p' : Pages τ} (hb : p'.below = p.below) (hp : p'.page = p.page) : p.Adds p' :=
  ⟨hb, "", by rw [hp, String.append_empty]⟩

theorem Pages.Adds.trans {p q r : Pages τ} (h : p.Adds q) (h' : q.Adds r) : p.Adds r := by
  obtain ⟨hb, text, hp⟩ := h
  obtain ⟨hb', text', hp'⟩ := h'
  exact ⟨hb'.trans hb, text ++ text', by rw [hp', hp, String.append_assoc]⟩

/-- A manner that allows what is added to a page, also on a page of its own, and all notes of a target.
What the target knows besides may change as `owns` says. -/
structure PageManner (τ : Type) (owns : τ → τ → Prop) extends Manner (Pages τ) where
  owns_refl : ∀ o, owns o o
  adds : ∀ d p, d.pages.Adds p → owns d.pages.own p.own → p.level = d.pages.level → change d { d with pages := p }
  note : ∀ d line, change d (d.note (.writeStep line))
  onPage : ∀ {act}, toManner.Allows act → toManner.Allows (Page.onPage act)
  /-- Whether scopes may be opened and closed. -/
  scopes : Prop
  shift : scopes → ∀ n, toManner.Allows (Page.shift n)
  /-- What is written one level deeper opens no scope. -/
  deeper : ∀ {act : PageM τ Unit}, toManner.Allows act → toManner.Allows do
    Page.shift 1
    act
    Page.shift (-1)

/-- All changes of what a target knows. -/
def Freely (_ _ : τ) : Prop := True

namespace PageManner

variable {owns : τ → τ → Prop} (M : PageManner τ owns)

theorem write (text : String) : M.Allows (Page.write text) := fun d => M.adds d _ ⟨rfl, text, rfl⟩ (M.owns_refl _) rfl

theorem modifyOwn (f : τ → τ) (h : ∀ o, owns o (f o)) : M.Allows (Page.modifyOwn f) :=
  fun d => M.adds d _ (.of_eq rfl rfl) (h _) rfl

theorem level : M.Allows (Page.level : PageM τ Int) := M.refl

theorem own : M.Allows (Page.own : PageM τ τ) := M.refl

theorem classes : M.Allows (Page.classes : PageM τ ClassTable) := M.refl

theorem trace (line : String) : M.Allows (Page.trace line : PageM τ Unit) := fun d => M.note d line

/-- Whether a manner allows to go on with another page. -/
def Turns : Prop := ∀ d p, owns d.pages.own p.own → M.change d { d with pages := p }

variable {M}

theorem Turns.openPage (h : M.Turns) : M.Allows (Page.openPage : PageM τ Unit) := fun d => h d _ (M.owns_refl _)

theorem Turns.takePage (h : M.Turns) : M.Allows (Page.takePage : PageM τ String) := fun d => h d _ (M.owns_refl _)

theorem Turns.flush (h : M.Turns) : M.Allows (Page.flush : PageM τ Unit) := fun d => h d _ (M.owns_refl _)

/-- A manner that allows all changes of pages. -/
def ofPages (M : Manner (Pages τ)) (owns_refl : ∀ o, owns o o)
    (pages : ∀ d p, owns d.pages.own p.own → M.change d { d with pages := p })
    (note : ∀ d line, M.change d (d.note (.writeStep line))) : PageManner τ owns where
  toManner := M
  owns_refl := owns_refl
  adds d p _ h _ := pages d p h
  note := note
  onPage h := .bind (x := Page.openPage) (fun d => pages d _ (owns_refl _)) fun _ => h.bind fun _ d =>
    pages d _ (owns_refl _)
  scopes := True
  shift _ _ d := pages d _ (owns_refl _)
  deeper h := .bind (x := Page.shift 1) (fun d => pages d _ (owns_refl _)) fun _ => h.bind fun _ d =>
    pages d _ (owns_refl _)

/-- Being allowed, as a relation that looks at its first action only. -/
def likeness {own : τ → τ → Prop} (M : PageManner τ owns) : Likeness τ Eq own where
  Holds _ x _ := M.Allows x
  turns := M.Turns
  scopes := M.scopes
  owns := owns
  pure _ := .pure _
  throw h := .throw h
  bind refl h hf := h.bind fun a => hf a a (refl a)
  write _ := M.write _
  trace a _ := M.trace a
  shift := M.shift
  level := M.level
  known := M.own
  learn h _ := M.modifyOwn _ h
  classes := M.classes
  page := Manner.Allows.get.bind fun _ => .pure _
  onPage := M.onPage
  openPage h := h.openPage
  takePage h := h.takePage
  flush h := h.flush

end PageManner

/-! ## Dialects -/

namespace Dialect

variable {d : Dialect τ} {owns : τ → τ → Prop} {M : PageManner τ owns} (H : d.Has fun x => M.Allows x)

include H

theorem enumerators_allowed (inits : Table Expr) (vs : List String) : M.Allows (d.enumerators inits vs) :=
  (M.likeness : Likeness τ Eq Eq).enumerators H (fun h h' => h ▸ h' ▸ rfl)
  (.refl (fun _ => rfl) (fun _ => rfl) inits.entries) vs

end Dialect

/-! ## Collecting classes -/

namespace Collect

theorem or_plain {a b : Option Fault} (ha : ∀ f ∈ a, f.isPlain = true) (hb : ∀ f ∈ b, f.isPlain = true) :
    ∀ f ∈ a.or b, f.isPlain = true := by
  cases a with
  | none => exact hb
  | some f => exact ha

mutual
theorem fault?_plain : ∀ e, ∀ f ∈ fault? e, f.isPlain = true
  | .group e | .unary _ e | .isType e _ | .index e | .assign _ _ e => fault?_plain e
  | .binary a _ b | .seq a b => or_plain (fault?_plain a) (fault?_plain b)
  | .contains _ item _ whole _ => or_plain (fault?_plain whole) (fault?_plain item)
  | .choice c a b => or_plain (or_plain (fault?_plain c) (fault?_plain a)) (fault?_plain b)
  | .call _ _ args | .emitSignal _ args => faults?_plain args
  | .connectSignal _ [] => by rintro _ ⟨⟩; rfl
  | .connectSignal _ (e :: _) => fault?_plain e
  | .nothing | .literal _ | .text _ | .array _ | .dictionary _ | .node _ | .lambda _ _ | .name _ _
  | .construct _ _ _ | .access _ | .constant _ => nofun

theorem faults?_plain : ∀ es, ∀ f ∈ faults? es, f.isPlain = true
  | [] => nofun
  | e :: es => or_plain (fault?_plain e) (faults?_plain es)
end

theorem require_allowed {M : Manner Unit} {f : Option Fault} (h : ∀ e ∈ f, e.isPlain = true) :
    M.Allows (require f) := by
  cases f with
  | none => exact .pure _
  | some f => exact .throw (h f rfl)

/-- **Collecting classes**: the target only looks at expressions. -/
theorem serve_allowed (M : Manner Unit) (q : Request) : M.Allows (serve q) := by
  unfold serve
  split <;> first
    | exact require_allowed (faults?_plain _)
    | exact require_allowed (fault?_plain _)
    | exact .pure _

end Collect

/-! ## Writing C# -/

namespace CSharp

open Target

section writing

variable (M : PageManner State Freely) (s : Settings)

theorem put_allowed (text : String) : M.Allows (put text) := put_same .eq M.likeness text

theorem openScope_allowed (scopes : M.scopes) : M.Allows openScope := openScope_alike .eq M.likeness scopes

theorem typeText_allowed (type : Ty) : M.Allows (typeText s type) :=
  typeText_alike (M.likeness : Likeness State Eq (StateAlike Eq Eq)) s type

theorem dialect_allowed : (dialect s).Has fun x => M.Allows x := dialect_alike .eq M.likeness s

theorem exposure_allowed (name : String) (override : Bool) : M.Allows (exposure name override) :=
  exposure_alike (M.likeness : Likeness State Eq (StateAlike Eq Eq)) name override

theorem initialText_allowed (init : Option Expr) : M.Allows (initialText s init) :=
  initialText_alike .eq M.likeness s (Wording.eq.init_refl init)

theorem withField_allowed (p : Property) (code : String) : M.Allows (withField s p code) :=
  withField_alike .eq M.likeness s (Wording.eq.property_refl p) rfl

theorem withMissing_allowed (p : Property) (accessors : List Accessor) (code : String) :
    M.Allows (withMissing p accessors code) :=
  withMissing_alike .eq M.likeness rfl (Wording.eq.accessors_refl accessors) rfl

/-- **Writing C#**: the target looks at the class table and never changes it. -/
theorem serve_allowed (q : Request) (turns : q.turns = true → M.Turns)
    (scopes : q.scopes = true → M.scopes) : M.Allows (serve s q) :=
  serve_alike .eq M.likeness s (fun _ _ _ => trivial) (.same q) (sameAccessors_refl q) turns
    (fun _ _ _ => trivial) scopes

end writing

end CSharp

/-! ## Writing C++ -/

namespace CPlusPlus

open Target

/-- What is known of a script may change, but for its name and the class that is written. -/
def SameClass (o o' : State) : Prop := o'.className = o.className ∧ o'.scriptName = o.scriptName

/-- What is known of a script may change by a text outside all scopes. -/
def Outside (owns : State → State → Prop) (text : String) : Prop := ∀ o, owns o
  (if o.drafts.isEmpty then { o with declarations := o.declarations ++ text } else o.redraft (·.add text))

/-- What is known of a script may change by line ends outside all scopes, and by the classes that are needed. -/
class Tolerant (owns : State → State → Prop) : Prop where
  lines : ∀ level text, text.toList.all (· == '\n') = true → Outside owns (Page.indented level text)
  use : ∀ o names, owns o (o.use names)

/-- The remark that a request asks for. -/
def remark? : Request → Option String
  | .comment text => some ("//" ++ text)
  | .longComment text => some ("/*" ++ text ++ "*/")
  | _ => none

theorem SameClass.refl (o : State) : SameClass o o := ⟨rfl, rfl⟩

theorem SameClass.outside (text : String) : Outside SameClass text := by
  intro o
  split <;> exact ⟨rfl, rfl⟩

instance : Tolerant SameClass where
  lines _ _ _ := .outside _
  use _ _ := ⟨rfl, rfl⟩

section statements

variable {owns : State → State → Prop} [Tolerant owns] (M : PageManner State owns) (s : Settings)

theorem put_allowed (text : String) : M.Allows (put text) := by
  refine M.level.bind fun level => ?_
  split
  · next h =>
    have ends : text.toList.all (· == '\n') = true := by
      rw [Bool.and_eq_true] at h
      exact h.1
    exact (M.modifyOwn _ (Tolerant.lines level text ends)).bind fun _ => M.trace _
  · exact (M.write _).bind fun _ => M.trace _

theorem putThen_allowed {β : Type} {text : String} {x : PlusM β} (h : M.Allows x) :
    M.Allows (put text >>= fun _ => x) :=
  (put_allowed M text).bind fun _ => h

theorem openScope_allowed (scopes : M.scopes) : M.Allows openScope :=
  M.level.bind fun _ => (M.trace _).bind fun _ => putThen_allowed M <| M.shift scopes _

theorem closeScope_allowed (scopes : M.scopes) : M.Allows closeScope :=
  M.level.bind fun _ => (M.trace _).bind fun _ =>
    .ite ((M.shift scopes _).bind fun _ => put_allowed M _) (.pure _)

theorem typeText_allowed (type : Ty) : M.Allows (typeText s type) :=
  M.classes.bind fun _ => (M.modifyOwn _ fun _ => Tolerant.use ..).bind fun _ => .pure _

theorem paramText_allowed (p : String × Ty) : M.Allows (paramText s p) :=
  (typeText_allowed M s p.2).bind fun _ => .pure _

theorem putListed_allowed {text : α → PlusM String} (h : ∀ a, M.Allows (text a)) : ∀ as, M.Allows (putListed text as)
  | [] => .pure _
  | [a] => (h a).bind fun _ => put_allowed M _
  | a :: b :: as => (h a).bind fun _ => putThen_allowed M <| putThen_allowed M <|
      putListed_allowed h (b :: as)

theorem collection_allowed (name contents : String) : M.Allows (collection name contents) :=
  putThen_allowed M <| .ite (put_allowed M _) (M.deeper (put_allowed M _))

theorem dialect_allowed : (dialect s).Has fun x => M.Allows x where
  pure := .pure _
  noHandler := .throw rfl
  bind hx hy := hx.bind fun _ => hy
  same _ := rfl
  string := congrArg _
  jump := congrArg (closeWith · _)
  write _ := M.write _
  put := put_allowed M
  array _ := collection_allowed M _ _
  dictionary _ := collection_allowed M _ _
  lambda params _ _ _ := putThen_allowed M <|
    (putListed_allowed M (paramText_allowed M s) params.entries).bind fun _ =>
    putThen_allowed M <| M.write _
  name role _ := by cases role <;> exact put_allowed M _
  access _ := putThen_allowed M <| put_allowed M _
  assign _ _ _ _ h := putThen_allowed M <|
    .ite (putThen_allowed M <| h.bind fun _ => put_allowed M _) (putThen_allowed M <| h)
  isType _ _ _ h := putThen_allowed M <| h.bind fun _ => put_allowed M _
  connect _ _ _ h := putThen_allowed M <| h.bind fun _ => put_allowed M _

theorem forHead_allowed (name type : String) (e : Expr) : M.Allows (forHead s name type e) :=
  (M.onPage ((dialect_allowed M s).expr e)).bind fun _ =>
    (typeText_allowed M s _).bind fun _ => .ite (put_allowed M _) (put_allowed M _)

theorem declaredParam_allowed (inits : Table Expr) (p : String × Ty) : M.Allows (declaredParam s inits p) := by
  refine (paramText_allowed M s p).bind fun _ => ?_
  cases inits.find? p.1 with
  | none => exact .pure _
  | some e => exact (M.onPage ((dialect_allowed M s).expr e)).bind fun _ => .pure _

theorem closeScopes_allowed (scopes : M.scopes) (n : Nat) : M.Allows (closeScopes n) := by
  induction n with
  | zero => exact .pure _
  | succ n ih => exact (closeScope_allowed M scopes).bind fun _ => ih

omit [Tolerant owns] in
theorem draft_allowed : M.Allows draft := M.own.bind fun _ => .pure _

omit [Tolerant owns] in
theorem classInfo_allowed : M.Allows classInfo := Manner.Allows.get.bind fun _ => .pure _

/-- **Statements in C++**: the class table stays as it is. -/
theorem serve_inBlock_allowed (q : Request) (hq : q.inBlock = true)
    (remarks : ∀ text, remark? q = some text → Outside owns text) (turns : q.turns = true → M.Turns)
    (scopes : q.scopes = true → M.scopes) : M.Allows (serve s q) := by
  have H := dialect_allowed M s
  have said {text : String} (h : Outside owns text) : M.Allows (comment text) :=
    M.level.bind fun _ => .ite (put_allowed M _) (M.modifyOwn _ h)
  cases q with
  | put text => exact put_allowed M _
  | comment text | longComment text => exact said (remarks _ rfl)
  | indent | dedent => exact M.shift (scopes rfl) _
  | openPage => exact (turns rfl).openPage
  | openScope => exact openScope_allowed M (scopes rfl)
  | closeScope => exact closeScope_allowed M (scopes rfl)
  | localVariable type name init =>
    refine (typeText_allowed M s _).bind fun _ => putThen_allowed M <| ?_
    cases init with
    | none => exact .pure _
    | some e => exact H.assignment e
  | assignment e => exact H.assignment e
  | endStatement => exact M.level.bind fun _ => .ite (put_allowed M _) (.pure _)
  | expr e => exact H.expr e
  | arrayItem e => exact H.arrayItem e
  | dictionaryItem k v => exact H.dictionaryItem k v
  | ifHead e | elifHead e | whileHead e => exact H.between _ e _
  | forHead name type e => exact forHead_allowed M s _ _ _
  | elseHead | breakStatement | continueStatement | await => exact put_allowed M _
  | returnHead e => exact H.returnHead e
  | matchHead byJump => exact H.matchHead byJump fun h => (turns (by simp [Request.turns, h])).openPage
  | matchSubject byJump =>
    cases byJump with
    | true => exact putThen_allowed M <| openScope_allowed M (scopes rfl)
    | false => exact put_allowed M _
  | matchCase byJump comparison pattern guard code => exact H.matchCase _ _ _ _ _
  | _ => cases hq

end statements

section writing

variable (M : PageManner State SameClass) (s : Settings)

theorem redraft_allowed (f : ClassDraft → ClassDraft) : M.Allows (redraft f) :=
  M.modifyOwn (·.redraft f) fun _ => ⟨rfl, rfl⟩

theorem enumeration_allowed (name : String) (values : Params) (inits : Table Expr) :
    M.Allows (enumeration s name values inits) :=
  (Dialect.enumerators_allowed (dialect_allowed M s) inits _).bind fun _ => redraft_allowed M _

theorem property_allowed (p : Property) : M.Allows (property s p) := by
  have H := dialect_allowed M s
  refine (redraft_allowed M _).bind fun _ => (typeText_allowed M s _).bind fun _ =>
    (redraft_allowed M _).bind fun _ => ?_
  cases p.init with
  | none => exact redraft_allowed M _
  | some e =>
    refine .ite ?_ (.ite ?_ ?_)
    · exact (M.onPage (putThen_allowed M <| H.assignment e)).bind fun _ =>
        (redraft_allowed M _).bind fun _ => redraft_allowed M _
    · exact M.own.bind fun _ => (M.onPage (putThen_allowed M <| H.assignment e)).bind fun _ =>
        (redraft_allowed M _).bind fun _ => redraft_allowed M _
    · exact (M.onPage (H.assignment e)).bind fun _ => (redraft_allowed M _).bind fun _ =>
        redraft_allowed M _

theorem signal_allowed (name : String) (params : Params) : M.Allows (signal s name params) :=
  (redraft_allowed M _).bind fun _ => (Manner.Allows.mapM (paramText_allowed M s) _).bind fun _ =>
    redraft_allowed M _

end writing

section methods

/- A method is put into the class table, so that it can be bound. -/
variable {owns : State → State → Prop} (M : PageManner State owns) (s : Settings)

/-- A method is put into the draft of its class and into the class table. -/
def addMethod (m : Method) : PlusM Unit := do
  redraft fun c => { c with methodArgs := c.methodArgs.put m.name m.params.keys }
  updateClass fun c => { c with methods := c.methods.put m.name m.returns }

/-- What is made of the class that is written and the lines that bind its methods. -/
def withBindings {β : Type} (f : ClassInfo → List String → β) : PlusM β := do
  let info ← classInfo
  let methods ← info.methods.keys.mapM methodBinding
  return f info methods

/-- The methods that no script has. -/
inductive Generated : Method → Prop
  | getter (x code : String) (returns : Ty) : Generated { name := getterName x, code := code, returns := returns }
  | setter (x value code : String) (type : Ty) :
      Generated { name := setterName x, code := code, params := .ofList [(value, type)] }
  | ready : Generated { name := "_ready", override := true }
  | bindings (code : String) : Generated { name := "_bind_methods", code := code, static := true }

/-- What a manner has to say about the methods and members that are added to the class that is written. -/
structure Registers : Prop where
  note : ∀ f : ClassDraft → ClassDraft, (∀ c, (f c).name = c.name ∧ (f c).text = c.text ∧
    (f c).isProtected = c.isProtected ∧ (f c).methodArgs = c.methodArgs) → M.Allows (redraft f)
  label : M.Allows (redraft fun c => c.toPublic.add "\n")
  method : ∀ m, Generated m → M.Allows (method s m)
  memberType : ∀ name, M.Allows (memberType name)
  bind : ∀ {β : Type} (f : ClassInfo → List String → β), M.Allows (withBindings f)

/-- A manner that allows all methods. -/
structure RegistersAll : Prop extends Registers M s where
  all : ∀ m, M.Allows (CPlusPlus.method s m)

section failing

variable {M} (fails : ∀ name d, M.fails (.unknownEntry name) d d)

include fails

theorem memberType_allowed (name : String) : M.Allows (memberType name) := by
  refine (classInfo_allowed M).bind fun c => ?_
  cases c.members.find? name with
  | some t => exact .pure _
  | none => exact fails name

theorem withBindings_allowed {β : Type} (f : ClassInfo → List String → β) : M.Allows (withBindings f) := by
  refine (classInfo_allowed M).bind fun _ => (Manner.Allows.mapM (fun name => ?_) _).bind fun _ => .pure _
  refine .ite (.pure _) ((draft_allowed M).bind fun c => ?_)
  cases c.methodArgs.find? name with
  | none => exact fails name
  | some args => exact M.own.bind fun _ => .pure _

end failing

/-- The code of a method, or a pair of braces. -/
def methodCode (m : Method) : PlusM String :=
  if m.code.isEmpty then Page.onPage (put "\n\x7b\n\x7d") else pure m.code

/-- A method that is known is declared, and defined with its code. -/
def defineMethod (m : Method) (code : String) : PlusM Unit := do
  redraft ClassDraft.toPublic
  let returns ← typeText s m.returns
  let declared ← m.params.entries.mapM (declaredParam s m.inits)
  redraft (·.add ("\t" ++ (if m.static then "static " else "") ++ returns ++ " " ++ m.name ++ "(" ++
    String.intercalate ", " declared ++ ")" ++ (if m.override then " override" else "") ++ ";\n"))
  let returns ← typeText s m.returns
  let defined ← m.params.entries.mapM (paramText s)
  put (returns ++ " " ++ (← Page.own).className ++ "::" ++ m.name ++ "(" ++
    String.intercalate ", " defined ++ ")")
  let waiting := (← draft).onready
  if m.name = "_ready" ∧ ¬ waiting.isEmpty then
    redraft fun c => { c with onready := [] }
    Page.write (Dialect.withFirstStatements (← Page.level) waiting code)
  else Page.write code

theorem method_eq (m : Method) : method s m = (do
      addMethod m
      defineMethod s m (← methodCode m)) := by
  refine ((bind_assoc ..).trans (congrArg _ (funext fun _ => congrArg _ (funext fun _ => ?_)))).symm
  unfold methodCode
  split <;> rfl

theorem defineMethod_allowed (M : PageManner State SameClass) (m : Method) (code : String) :
    M.Allows (defineMethod s m code) :=
  (redraft_allowed M _).bind fun _ => (typeText_allowed M s _).bind fun _ =>
    (Manner.Allows.mapM (declaredParam_allowed M s _) _).bind fun _ =>
    (redraft_allowed M _).bind fun _ => (typeText_allowed M s _).bind fun _ =>
    (Manner.Allows.mapM (paramText_allowed M s) _).bind fun _ => M.own.bind fun _ =>
    putThen_allowed M <| (draft_allowed M).bind fun _ => .ite
      ((redraft_allowed M _).bind fun _ => M.level.bind fun _ => M.write _) (M.write _)

theorem methodRest_allowed (M : PageManner State SameClass) (m : Method) :
    M.Allows (do defineMethod s m (← methodCode m)) :=
  (Manner.Allows.ite (M.onPage (put_allowed M _)) (.pure _)).bind fun _ => defineMethod_allowed s M m _

variable {s} in
theorem RegistersAll.of_add {M : PageManner State SameClass} (add : ∀ m : Method, M.Allows (addMethod m))
    (memberType : ∀ name, M.Allows (CPlusPlus.memberType name))
    (bind : ∀ {β : Type} (f : ClassInfo → List String → β), M.Allows (withBindings f)) : RegistersAll M s := by
  have all (m : Method) : M.Allows (method s m) := by
    rw [method_eq]
    exact (add m).bind fun _ => methodRest_allowed s M m
  exact ⟨⟨fun f _ => redraft_allowed M f, redraft_allowed M _, fun m _ => all m, memberType, bind⟩, all⟩

variable {s} in
theorem RegistersAll.of_all {M : PageManner State SameClass} (add : ∀ d name returns, M.change d { d with
      classes := d.classes.update d.pages.own.className fun c => { c with methods := c.methods.put name returns } })
    (fails : ∀ name d, M.fails (.unknownEntry name) d d) : RegistersAll M s :=
  .of_add (fun m => (redraft_allowed M _).bind fun _ d => add d m.name m.returns) (memberType_allowed fails)
    (withBindings_allowed fails)

variable {M} {s} (hc : Registers M s)

include hc

theorem Registers.noted (f : ClassDraft → ClassDraft) (h : ∀ c, (f c).name = c.name ∧ (f c).text = c.text ∧
    (f c).isProtected = c.isProtected ∧ (f c).methodArgs = c.methodArgs := by exact fun _ => ⟨rfl, rfl, rfl, rfl⟩) :
    M.Allows (redraft f) := hc.note f h

theorem getter_allowed (name code : String) : M.Allows (getter s name code) :=
  (hc.noted _).bind fun _ => (hc.memberType _).bind fun _ => hc.method _ (.getter ..)

theorem setter_allowed (name value code : String) : M.Allows (setter s name value code) :=
  (hc.noted _).bind fun _ => (hc.memberType _).bind fun _ => hc.method _ (.setter ..)

theorem accessor_allowed (p : Property) (a : Accessor) : M.Allows (accessor s p a) := by
  cases a with
  | getterMethod m => exact hc.noted _
  | setterMethod m => exact hc.noted _
  | getter code => exact getter_allowed hc _ _
  | setter value code => exact setter_allowed hc _ _ _

theorem endProperty_allowed (p : Property) (accessors : List Accessor) : M.Allows (endProperty s p accessors) := by
  have missing (b : Bool) : M.Allows (do if b then defaultSetter s p.name) := .ite (setter_allowed hc _ _ _) (.pure _)
  exact .ite ((getter_allowed hc _ _).bind fun _ => missing _) (missing _)

theorem markerBinding_allowed (a : BoundMarker) : M.Allows (markerBinding s a) := by
  unfold markerBinding
  cases a.member with
  | none => exact .pure _
  | some member =>
    have last (b : Bool) (text : String) : M.Allows (do
        if b then defaultGetter s member
        return text) :=
      .ite ((getter_allowed hc _ _).bind fun _ => .pure _) (.pure _)
    refine .ite (.pure _) <| (hc.memberType _).bind fun _ => .ite (.pure _) <|
      (draft_allowed M).bind fun _ => .ite ((setter_allowed hc _ _ _).bind fun _ => ?_) ?_
    · exact last _ _
    · exact last _ _

theorem bindings_allowed : M.Allows (bindings s) :=
  (draft_allowed M).bind fun _ => (Manner.Allows.mapM (markerBinding_allowed hc) _).bind fun _ =>
    (draft_allowed M).bind fun _ => hc.bind _

theorem addLastMethods_allowed [Tolerant owns] : M.Allows (addLastMethods s) := by
  have bound : M.Allows (do
      let code ← bindings s
      redraft fun c => c.toPublic.add "\n"
      put "\n"
      CPlusPlus.method s { name := "_bind_methods", code := code, static := true }) :=
    (bindings_allowed hc).bind fun _ => hc.label.bind fun _ => putThen_allowed M <| hc.method _ (.bindings _)
  refine (draft_allowed M).bind fun _ => .ite ((hc.method _ .ready).bind fun _ => ?_) ?_
  all_goals exact (draft_allowed M).bind fun _ => (classInfo_allowed M).bind fun _ => .ite bound (.pure _)

omit hc

theorem endClass_allowed {M : PageManner State SameClass} (hc : Registers M s) : M.Allows (endClass s) :=
  (addLastMethods_allowed hc).bind fun _ => (draft_allowed M).bind fun _ => (classInfo_allowed M).bind fun _ =>
    M.modifyOwn _ fun _ => ⟨rfl, rfl⟩

theorem endScript_allowed {M : PageManner State SameClass} (hc : Registers M s) (turns : M.Turns) (scopes : M.scopes) :
    M.Allows (endScript s) :=
  (endClass_allowed hc).bind fun _ => turns.flush.bind fun _ => M.level.bind fun _ =>
    (closeScopes_allowed M scopes _).bind fun _ => Manner.Allows.get.bind fun _ => M.modifyOwn _ fun _ => ⟨rfl, rfl⟩

/-- **Writing C++**: of the class table only the methods of the class that is written change. -/
theorem serve_allowed (s : Settings) (M : PageManner State SameClass) (q : Request) (turns : q.turns = true → M.Turns)
    (adds : q.inBlock = false → RegistersAll M s)
    (enters : ∀ name, q = .enterClass name → M.Allows (Page.modifyOwn fun o : State => { o with className := name }))
    (defines : ∀ name base isTool isMain, q = .defineClass name base isTool isMain →
      M.Allows (Page.modifyOwn fun o : State => { o with drafts := o.drafts.put name { name := name } }))
    (scopes : q.scopes = true → M.scopes) : M.Allows (serve s q) := by
  cases q with
  | enterClass name => exact enters name rfl
  | defineClass name base isTool isMain =>
    exact (M.modifyOwn (·.use [base]) fun _ => ⟨rfl, rfl⟩).bind fun _ => (defines _ _ _ _ rfl).bind fun _ =>
      redraft_allowed M _
  | endClass name => exact endClass_allowed (adds rfl).toRegisters
  | endScript => exact endScript_allowed (adds rfl).toRegisters (turns rfl) (scopes rfl)
  | enumeration name values inits => exact enumeration_allowed M s _ _ _
  | marker name args member spacing => exact redraft_allowed M _
  | property p accessors => exact property_allowed M s _
  | accessor p a => exact accessor_allowed (adds rfl).toRegisters _ _
  | endProperty p accessors => exact endProperty_allowed (adds rfl).toRegisters _ _
  | method m => exact (adds rfl).all _
  | signal name params => exact signal_allowed M s _ _
  | _ => exact serve_inBlock_allowed M s _ rfl (fun _ _ => .outside _) turns scopes

end methods

end CPlusPlus

end GdScribe
