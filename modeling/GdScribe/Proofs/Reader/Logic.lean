import GdScribe.Proofs.Reader.Alike
import GdScribe.Proofs.Reader.Moves
import GdScribe.Proofs.Table

/-!
# What is said of two actions

The same is shown of expressions, statements and members again and again: that two runs agree, that an
action keeps to a course, that a bound on nested rules is not felt. Each is a statement about two actions,
which may be the same, and follows from what it says of the single moves of a reader.

* `Comparable`, `Logic.Core`, `Logic.Moves`, `Logic.Laws`, `Logic.MemberLaws`, `Logic.LineLaws`: what a logic has to
  say about tokens, about the moves of a reader, about two targets, about the members of a class and about the ends of
  lines. Where several moves belong together, as a page and the text that is taken from it, the law is about all.

Principal results: `Logic.Core.ifExpect`, `Logic.Core.whileExpected` and `Logic.Core.type`.
-/

namespace GdScribe

/-- Whether a request is a comment that was found in the script. A report of a line that cannot be read
ends in a line end of its own. -/
def Request.isRemark : Request → Bool
  | .comment text => !text.toList.contains '\n'
  | _ => false

/-- The requests that write a part of a statement and leave scopes, pages and classes alone. -/
def Request.inBody : Request → Bool
  | .put _ | .comment _ | .longComment _ | .localVariable _ _ _ | .assignment _ | .endStatement | .expr _
  | .arrayItem _ | .dictionaryItem _ _ | .ifHead _ | .elifHead _ | .elseHead | .whileHead _
  | .forHead _ _ _ | .breakStatement | .continueStatement | .returnHead _ | .await _ _
  | .matchCase _ _ _ _ _ => true
  | _ => false

/-- The notes between the members of a class. -/
def Note.isMark : Note → Bool
  | .line _ | .member _ | .skipped | .panicked => true
  | _ => false

/-- The requests for members of a class, but for a property with accessors, which starts with one
request and ends with another. -/
def Request.inClass : Request → Bool
  | .enumeration _ _ _ | .marker _ _ _ _ | .property _ false | .accessor _ _ | .method _
  | .signal _ _ => true
  | _ => false

/-- The faults of a reader itself. -/
def Fault.ofReader : Fault → Bool
  | .endless | .untypedArray | .notALevel _ => true
  | _ => false

namespace Read

variable {σ τ α β : Type}

/-! ## Moves that belong together -/

/-- The start of a choice, up to its first case: gives the level of the cases, and the start of each
comparison with the subject. -/
def choiceHead (w : Writer σ) (byJump : Bool) (subject : Expr) : ReadM σ (Nat × String) := do
  ask w (.matchHead byJump)
  ask w (.expr subject)
  let _ ← expect ":"
  let level ← deepen w (.matchSubject byJump)
  let comparison ← caseComparison w byJump
  return (level, comparison)

/-- The cases of a choice. -/
def caseRounds (w : Writer σ) (r : Rules σ) (byJump : Bool) (level : Nat) (comparison : String) : ReadM σ Ty :=
  whileMoving (return level ≤ (← get).level)
    (fun t => return .yield (t.orElse (← matchCase w r byJump comparison))) none

theorem matchStatement_eq (w : Writer σ) (r : Rules σ) : matchStatement w r = (do
      let e ← expression w r
      let head ← choiceHead w (jumps e.1) e.2
      caseRounds w r (jumps e.1) head.1 head.2) := by
  simp only [matchStatement, matchCases, casesAt, choiceHead, caseRounds, bind_assoc, pure_bind]

/-- A property with the accessors that an action reads. -/
def withAccessors (w : Writer σ) (p : Property) (accessors : ReadM σ (List Accessor)) : ReadM σ Unit := do
  let _ ← deepen w (.property p true)
  let found ← accessors
  ask w (.endProperty p found)

/-- A method is put down in the tables and written. -/
def putMethod (w : Writer σ) (m : Method) : ReadM σ Unit := do
  record (.method m.name m.returns)
  let override := !m.static && (← get).parentClass.methods.contains m.name
  ask w (.method { m with override := override })

/-! ## What is compared -/

/-- A word that a reader looks for. -/
abbrev Tested (x : String) : Prop := testedWords.contains x = true

/-- A kind that is the same on both sides. -/
abbrev Shared (k : TokenKind) : Prop := (k != .comment && k != .lineEnd) = true

/-- Rounds that both go on or both end, with related values. -/
def StepAlike (Q : α → β → Prop) : ForInStep α → ForInStep β → Prop
  | .done a, .done b => Q a b
  | .yield a, .yield b => Q a b
  | _, _ => False

theorem StepAlike.refl {Q : α → α → Prop} (hQ : ∀ a, Q a a) : ∀ a, StepAlike Q a a
  | .done a => hQ a
  | .yield a => hQ a

/-- Readers that stand at the same place of their classes. -/
structure SamePlace (s : Reader σ) (t : Reader τ) : Prop where
  level : s.level = t.level
  isTool : s.isTool = t.isTool
  classes : s.classes = t.classes
  locals : s.locals = t.locals
  inParens : s.inParens = t.inParens

/-- What two readers know in common. -/
structure Near (token : Token → Token → Prop) (table : ClassTable → ClassTable → Prop)
    (s : Reader σ) (t : Reader τ) : Prop extends SamePlace s t where
  current : token s.current t.current
  table : table s.desk.classes t.desk.classes

/-- What is said of two actions. -/
structure Logic (σ τ : Type) where
  token : Token → Token → Prop
  /-- Texts that are taken from pages. -/
  text : String → String → Prop
  /-- Contents of string literals. -/
  contents : String → String → Prop
  /-- With at most so many tokens left, two actions are alike, with related results. -/
  Holds : Nat → {α : Type} → (α → α → Prop) → ReadM σ α → ReadM τ α → Prop

namespace Near

variable {token : Token → Token → Prop} {s : Reader σ} {t : Reader τ}

theorem refl {s : Reader σ} : Near Eq Table.Alike s s := ⟨⟨rfl, rfl, rfl, rfl, rfl⟩, rfl, fun _ => rfl⟩

theorem className {table : ClassTable → ClassTable → Prop} (n : Near token table s t) : s.className = t.className := by
  unfold Reader.className
  rw [n.classes]

variable (n : Near token Table.Alike s t)

include n

theorem ownClass : s.ownClass = t.ownClass := by
  unfold Reader.ownClass
  rw [n.className, ClassTable.info_alike n.table]

theorem parentClass : s.parentClass = t.parentClass := by
  unfold Reader.parentClass
  rw [n.className, ClassTable.parent_alike n.table]

theorem globals : s.desk.classes.globals = t.desk.classes.globals := ClassTable.info_alike n.table _

theorem contains (name : String) : s.desk.classes.contains name = t.desk.classes.contains name :=
  n.table.contains name

theorem nameType (name : String) : nameType s name = nameType t name := by
  unfold Read.nameType
  rw [n.ownClass, n.parentClass, n.globals, n.contains, n.className, n.locals]

theorem nameRole (name : String) : nameRole s name = nameRole t name := by
  unfold Read.nameRole
  rw [n.ownClass, n.parentClass, n.globals]

theorem callType (name : String) (caller : Ty) : callType s name caller = callType t name caller := by
  unfold Read.callType
  simp only [n.ownClass, n.parentClass, n.globals, n.contains, ClassTable.info_alike n.table]

theorem memberInfo (owner : Ty) (name : String) :
    memberInfo s.desk.classes owner name = memberInfo t.desk.classes owner name := by
  unfold Read.memberInfo
  rw [funext n.table]

end Near

/-- The same type and expressions that are alike. -/
def TypedAlike (G : Logic σ τ) (a b : Typed) : Prop := a.1 = b.1 ∧ ExprAlike G.text G.contents a.2 b.2

/-! ## Laws -/

/-- What has to hold of the tokens and texts that are compared. -/
structure Comparable (token : Token → Token → Prop) (text contents : String → String → Prop) : Prop where
  token_refl : ∀ t, token t t
  /-- A comment may stand on the first side only, before the end of its line. -/
  kind : ∀ {t u}, token t u → t.kind = u.kind ∨ t.value ∉ testedWords ∧ t.kind = .comment ∧ u.kind = .lineEnd
  value : ∀ {t u}, token t u → t.kind = u.kind → t.kind ≠ .string → t.value = u.value
  word : ∀ {t u}, token t u → ∀ x ∈ testedWords, (t.value = x ↔ u.value = x)
  text_refl : ∀ a, text a a
  contents_refl : ∀ a, contents a a

/-- What a logic has to say about results, actions in a row, and the moves over tokens. -/
structure Logic.Core (G : Logic σ τ) : Prop extends Comparable G.token G.text G.contents where
  less : ∀ {k} {α : Type} {Q : α → α → Prop} {x y}, G.Holds (k + 1) Q x y → G.Holds k Q x y
  pure : ∀ {k} {α : Type} {Q : α → α → Prop} {a b}, Q a b → G.Holds k Q (pure a) (pure b)
  bind : ∀ {k} {α β : Type} {Q : α → α → Prop} {R : β → β → Prop} {x y f g}, G.Holds k Q x y → (∀ a, Q a a) →
    (∀ a b, Q a b → G.Holds k R (f a) (g b)) → G.Holds k R (x >>= f) (y >>= g)
  throw : ∀ {k} {α : Type} {Q : α → α → Prop} {e}, e.ofReader = true → e ≠ .endless → G.Holds k Q (throw e) (throw e)
  get_bind : ∀ {k} {α : Type} {Q : α → α → Prop} {f g},
    (∀ s t, Near G.token Table.Alike s t → G.Holds k Q (f s) (g t)) → G.Holds k Q (get >>= f) (get >>= g)
  expect : ∀ {k v}, Tested v → G.Holds k Eq (expect v) (expect v)
  /-- Past the word in view, if it is the one that is looked for, there is one token less. -/
  pastWord : ∀ {k v} {α : Type} {Q : α → α → Prop} {x x' y y'}, Tested v → G.Holds k Q x y →
    G.Holds (k + 1) Q x' y' → G.Holds (k + 1) Q (Read.expect v >>= fun f => if f = true then x else x')
      (Read.expect v >>= fun f => if f = true then y else y')
  consume : ∀ {k}, G.Holds k Eq consume consume
  pastToken : ∀ {k} {α : Type} {Q : α → α → Prop} {f g}, (∀ v, G.Holds k Q (f v) (g v)) →
    G.Holds (k + 1) Q (Read.consume >>= f) (Read.consume >>= g)
  whileMoving : ∀ {k} {α : Type} {Q : α → α → Prop} {c d f g a b}, (∀ a, Q a a) → G.Holds k Eq c d →
    (∀ a b, Q a b → G.Holds k (StepAlike Q) (f a) (g b)) → Q a b →
    G.Holds k Q (whileMoving c f a) (whileMoving d g b)
  /-- A recursion that takes a token in each round, with as many rounds as tokens are left. -/
  bounded : ∀ {k} {ι α : Type} {Q : α → α → Prop} {f : Nat → ι → ReadM σ α} {g : Nat → ι → ReadM τ α},
    (∀ i, f 0 i = MonadExcept.throw .endless) → (∀ i, g 0 i = MonadExcept.throw .endless) →
    (∀ {j m n}, j ≤ k → (∀ i, G.Holds j Q (f m i) (g n i)) → ∀ i, G.Holds (j + 1) Q (f (m + 1) i) (g (n + 1) i)) →
    ∀ i, G.Holds (k + 1) Q (roundsLeft >>= fun n => f n i) (roundsLeft >>= fun n => g n i)

/-- What a logic has to say about the other moves that no target takes part in. -/
structure Logic.Moves (G : Logic σ τ) : Prop extends G.Core where
  consumeString : ∀ {k}, G.Holds k G.contents consumeString consumeString
  /-- Past a line end, or another token. A comment is taken for a name. -/
  lineOr : ∀ {k} {α : Type} {Q : α → α → Prop} {x y f g}, G.Holds k Q x y → (∀ v, G.Holds k Q (f v) (g v)) →
    G.Holds k Q (expectKind .lineEnd >>= fun b => if b = true then x else Read.consume >>= f)
      (expectKind .lineEnd >>= fun b => if b = true then y else Read.consume >>= g)
  bareName : ∀ {k} name, G.Holds k (TypedAlike G) (bareName name) (bareName name)
  reportNot : ∀ {k}, G.Holds k Eq reportNot reportNot
  setParens : ∀ {k} b, G.Holds k Eq (modify fun s => { s with inParens := b } : ReadM σ PUnit)
    (modify fun t => { t with inParens := b })
  learn : ∀ {k} name type, G.Holds k Eq (learn name type) (learn name type)
  closure : ∀ {k}, G.Holds k Eq enterClosure enterClosure

/-- What a logic has to say about two targets. -/
structure Logic.Laws (G : Logic σ τ) (v : Writer σ) (w : Writer τ) : Prop extends G.Moves where
  ask : ∀ {k q q'}, RequestAlike G.text G.contents q q' → (q.inBody && !q.isRemark) = true →
    G.Holds k Eq (ask v q) (ask w q')
  awaits : ∀ {k a b}, G.text a b → G.Holds k Eq (Read.ask v (.await (awaited a).1 (awaited a).2))
    (Read.ask w (.await (awaited b).1 (awaited b).2))
  onPage : ∀ {k} {α : Type} {x y : ReadM _ α}, G.Holds k Eq x y →
    G.Holds k (fun a b => a.1 = b.1 ∧ G.text a.2 b.2) (onPage v x) (onPage w y)
  bracketed : ∀ {k x y}, G.Holds k Eq x y → G.Holds k G.text (bracketed v x) (bracketed w y)
  choiceHead : ∀ {k e e'} byJump, ExprAlike G.text G.contents e e' →
    G.Holds k (fun a b => a.1 = b.1 ∧ G.text a.2 b.2) (choiceHead v byJump e) (choiceHead w byJump e')
  openScope : ∀ {k}, G.Holds k Eq (deepen v .openScope) (deepen w .openScope)
  endLine : ∀ {k}, G.Holds k Eq (endLine v) (endLine w)

/-- What a logic has to say about the members of a class, besides what stands in their bodies. -/
structure Logic.MemberLaws (G : Logic σ τ) (v : Writer σ) (w : Writer τ) : Prop extends G.Laws v w where
  askMember : ∀ {k q q'}, RequestAlike G.text G.contents q q' → q.inClass = true →
    G.Holds k Eq (Read.ask v q) (Read.ask w q')
  /-- The line end after the head of a property, before which a comment may stand. -/
  headLine : ∀ {k}, G.Holds k Eq (do commentInLine v; expectKind .lineEnd) (do commentInLine w; expectKind .lineEnd)
  withAccessors : ∀ {k p q x y}, PropertyAlike G.text G.contents p q →
    G.Holds k (List.Forall₂ (AccessorAlike G.text)) x y → G.Holds k Eq (withAccessors v p x) (withAccessors w q y)
  resuming : ∀ {k x y}, G.Holds k Eq x y → G.Holds k Eq (resuming x) (resuming y)
  record : ∀ {k} e, (∀ name returns, e ≠ .method name returns) → G.Holds k Eq (record e) (record e)
  putMethod : ∀ {k m m'}, MethodAlike G.text G.contents m m' → G.Holds k Eq (putMethod v m) (putMethod w m')

/-- What a logic has to say about the ends of lines, where both readers find tokens of the same kinds. -/
structure Logic.LineLaws (G : Logic σ τ) (v : Writer σ) (w : Writer τ) : Prop extends G.Core where
  same : ∀ {t u}, G.token t u → t.kind = u.kind
  pastMove : ∀ {k} {α : Type} {Q : α → α → Prop} {x y}, G.Holds k Q x y →
    G.Holds (k + 1) Q (advance >>= fun _ => x) (advance >>= fun _ => y)
  ask : ∀ {k} q, q.inBody = true → G.Holds k Eq (Read.ask v q) (Read.ask w q)
  leaveScopes : ∀ {k} indent, G.Holds k Eq (leaveScopes v indent) (leaveScopes w indent)

namespace Comparable

theorem eq : Comparable Eq Eq Eq where
  token_refl _ := rfl
  kind h := .inl (congrArg _ h)
  value h _ _ := congrArg _ h
  word h _ _ := by rw [h]
  text_refl _ := rfl
  contents_refl _ := rfl

variable {token : Token → Token → Prop} {text contents : String → String → Prop} (L : Comparable token text contents)
variable {t u : Token}

include L

/-- Kinds of tokens are the same on both sides, but for the ends of lines. -/
theorem kind_iff {k : TokenKind} (h : token t u) (hk : Shared k) : t.kind = k ↔ u.kind = k := by
  rcases L.kind h with same | ⟨-, ht, hu⟩
  · rw [same]
  · rw [ht, hu]
    constructor <;> (rintro rfl; cases hk)

theorem kind_beq {k : TokenKind} (h : token t u) (hk : Shared k) : (t.kind == k) = (u.kind == k) := by
  rw [Bool.eq_iff_iff, beq_iff_eq, beq_iff_eq]
  exact L.kind_iff h hk

theorem word_beq {x : String} (h : token t u) (hx : Tested x) : (t.value == x) = (u.value == x) := by
  rw [Bool.eq_iff_iff, beq_iff_eq, beq_iff_eq]
  exact L.word h x (List.contains_iff_mem.mp hx)

theorem expr_refl (e : Expr) : ExprAlike text contents e e := .refl L.text_refl L.contents_refl e

theorem exprs_refl (es : List Expr) : ExprsAlike text contents es es := .refl L.text_refl L.contents_refl es

theorem init_refl (e : Option Expr) : InitAlike text contents e e := .refl L.text_refl L.contents_refl e

theorem property_refl (p : Property) : PropertyAlike text contents p p := ⟨rfl, rfl, L.init_refl _, rfl, rfl, rfl⟩

theorem inits_refl (e : Table Expr) : InitsAlike text contents e e := .refl L.text_refl L.contents_refl _

end Comparable

namespace Logic

variable {G : Logic σ τ} {v : Writer σ} {w : Writer τ} {k : Nat} {Q : α → α → Prop}
variable {x x' : ReadM σ α} {y y' : ReadM τ α}

theorem Holds.iteIff {c d : Prop} [Decidable c] [Decidable d] (hcd : c ↔ d) (h : G.Holds k Q x y)
    (h' : G.Holds k Q x' y') : G.Holds k Q (if c then x else x') (if d then y else y') := by
  by_cases hc : c
  · rw [if_pos hc, if_pos (hcd.mp hc)]
    exact h
  · rw [if_neg hc, if_neg fun hd => hc (hcd.mpr hd)]
    exact h'

theorem Holds.ite {c : Prop} [Decidable c] (h : G.Holds k Q x y) (h' : G.Holds k Q x' y') :
    G.Holds k Q (if c then x else x') (if c then y else y') := .iteIff Iff.rfl h h'

namespace Core

section tokens

variable (L : G.Core) {kind : TokenKind} {word : String}

include L

theorem kindIs (hk : Shared kind) : G.Holds k Eq (kindIs kind) (kindIs kind) :=
  L.get_bind fun _ _ n => L.pure (L.kind_beq n.current hk)

theorem valueIs (hx : Tested word) : G.Holds k Eq (valueIs word) (valueIs word) :=
  L.get_bind fun _ _ n => L.pure (L.word_beq n.current hx)

end tokens

section rows

variable (L : G.Core) {R : β → β → Prop} {f : α → ReadM σ β} {g : α → ReadM τ β}

include L

theorem bindEq (hx : G.Holds k Eq x y) (hf : ∀ a, G.Holds k R (f a) (g a)) : G.Holds k R (x >>= f) (y >>= g) :=
  L.bind hx (fun _ => rfl) fun a _ h => h ▸ hf a

theorem bindToken {f : Token → ReadM σ β} {g : Token → ReadM τ β}
    (hf : ∀ t u, G.token t u → G.Holds k R (f t) (g u)) : G.Holds k R (current >>= f) (current >>= g) :=
  L.get_bind fun _ _ n => hf _ _ n.current

theorem take {f : String → ReadM σ β} {g : String → ReadM τ β} (hf : ∀ v, G.Holds k R (f v) (g v)) :
    G.Holds k R (Read.consume >>= f) (Read.consume >>= g) := L.bindEq L.consume hf

theorem typed_refl (a : Typed) : TypedAlike G a a := ⟨rfl, L.expr_refl a.2⟩

theorem bindTyped {x : ReadM σ Typed} {y : ReadM τ Typed} {f : Typed → ReadM σ β} {g : Typed → ReadM τ β}
    (hx : G.Holds k (TypedAlike G) x y)
    (hf : ∀ t e e', ExprAlike G.text G.contents e e' → G.Holds k R (f (t, e)) (g (t, e'))) :
    G.Holds k R (x >>= f) (y >>= g) := by
  refine L.bind hx L.typed_refl ?_
  rintro ⟨t, e⟩ ⟨_, e'⟩ ⟨rfl, h⟩
  exact hf t e e' h

theorem bindText {f : α × String → ReadM σ β} {g : α × String → ReadM τ β} {x : ReadM σ (α × String)}
    {y : ReadM τ (α × String)} (hx : G.Holds k (fun a b => a.1 = b.1 ∧ G.text a.2 b.2) x y)
    (hf : ∀ a c c', G.text c c' → G.Holds k R (f (a, c)) (g (a, c'))) : G.Holds k R (x >>= f) (y >>= g) := by
  refine L.bind hx (fun a => ⟨rfl, L.text_refl a.2⟩) ?_
  rintro ⟨a, c⟩ ⟨_, c'⟩ ⟨rfl, h⟩
  exact hf a c c' h

variable {word : String}

theorem skip (hx : Tested word) (h : G.Holds k Q x y) :
    G.Holds k Q (Read.expect word >>= fun _ => x) (Read.expect word >>= fun _ => y) := L.bindEq (L.expect hx) fun _ => h

theorem ifExpect (hx : Tested word) (h : G.Holds k Q x y) (h' : G.Holds k Q x' y') :
    G.Holds k Q (Read.expect word >>= fun f => if f = true then x else x')
      (Read.expect word >>= fun f => if f = true then y else y') := L.bindEq (L.expect hx) fun _ => .ite h h'

theorem ifKind {kind : TokenKind} (hk : Shared kind) (h : G.Holds k Q x y) (h' : G.Holds k Q x' y') :
    G.Holds k Q (Read.kindIs kind >>= fun f => if f = true then x else x')
      (Read.kindIs kind >>= fun f => if f = true then y else y') := L.bindEq (L.kindIs hk) fun _ => .ite h h'

theorem expectPair {u : String} (hx : Tested word) (hy : Tested u) :
    G.Holds k Eq (expectPair word u) (expectPair word u) := L.ifExpect hx (L.expect hy) (L.pure rfl)

theorem mono {j : Nat} (hj : j ≤ k) (h : G.Holds k Q x y) : G.Holds j Q x y := by
  induction hj with
  | refl => exact h
  | step _ ih => exact ih (L.less h)

variable {f : α → ReadM σ (ForInStep α)} {g : α → ReadM τ (ForInStep α)}

/-- **Repetition** as long as a word comes before each round. -/
theorem whileExpected {a b : α} (hx : Tested word)
    (hQ : ∀ a, Q a a) (hf : ∀ a b, Q a b → G.Holds k (StepAlike Q) (f a) (g b)) (q : Q a b) :
    G.Holds k Q (whileExpected word f a) (whileExpected word g b) := by
  refine L.less (L.bounded (ι := { p : α × α // Q p.1 p.2 }) (f := fun n p => expectRounds word f n p.1.1)
    (g := fun n p => expectRounds word g n p.1.2) (fun _ => rfl) (fun _ => rfl) (fun hj ih p => ?_) ⟨(a, b), q⟩)
  refine L.pastWord hx (L.bind (L.mono hj (hf _ _ p.2)) (.refl hQ) ?_) (L.pure p.2)
  rintro (c | c) (d | d) h
  · exact L.pure h
  · exact h.elim
  · exact h.elim
  · exact ih ⟨(c, d), h⟩

theorem type : G.Holds k Eq type type := by
  have dotted {j : Nat} (first : String) : G.Holds j Eq (dottedRest first) (dottedRest first) :=
    L.whileExpected rfl (fun _ => rfl) (fun _ _ h => h ▸ L.take fun _ => L.pure rfl) rfl
  refine L.less (L.bounded (f := fun n (_ : Unit) => typeWithin n) (g := fun n _ => typeWithin n) (fun _ => rfl)
    (fun _ => rfl) (fun _ ih _ => ?_) ())
  refine L.pastToken fun first => .ite (L.pure rfl) <| L.bindEq (dotted first) fun name => .ite ?_ (L.pure rfl)
  refine L.ifExpect rfl (L.bindEq (ih ()) fun t => ?_) (L.pure rfl)
  cases t with
  | none => exact L.throw rfl nofun
  | some element => exact L.skip rfl (L.pure rfl)

theorem typeAfter (hx : Tested word) : G.Holds k Eq (typeAfter word) (typeAfter word) :=
  L.ifExpect hx L.type (L.pure rfl)

theorem untilWord {a b : α} (hQ : ∀ a, Q a a) (hx : G.Holds k Eq (Read.expect word) (Read.expect word))
    (hf : ∀ a b, Q a b → G.Holds k (StepAlike Q) (f a) (g b)) (q : Q a b) :
    G.Holds k Q (Read.whileMoving (do return !(← Read.expect word)) f a)
      (Read.whileMoving (do return !(← Read.expect word)) g b) :=
  L.whileMoving hQ (L.bindEq hx fun _ => L.pure rfl) hf q

theorem valuesUpTo {stop : TokenKind → Bool} (hx : Tested word)
    (hs : ∀ {t u}, G.token t u → stop t.kind = stop u.kind) :
    G.Holds k Eq (valuesUpTo word stop) (valuesUpTo word stop) := by
  refine L.bindEq (L.whileMoving (fun _ => rfl) ?_ (fun _ _ h => h ▸ L.take fun _ => L.pure rfl) rfl) fun _ =>
    L.pure rfl
  exact L.bindEq (L.valueIs hx) fun _ => L.bindToken fun _ _ h => L.pure (by rw [hs h])

theorem levelOf (kind : TokenKind) (v : String) : G.Holds k Eq (levelOf kind v) (levelOf kind v) :=
  .ite (L.pure rfl) (L.throw rfl nofun)

theorem whileLevel (level : Nat) (a : α) (hf : ∀ a, G.Holds k (StepAlike Eq) (f a) (g a)) :
    G.Holds k Eq (Read.whileMoving (do return level ≤ (← get).level) f a)
      (Read.whileMoving (do return level ≤ (← get).level) g a) :=
  L.whileMoving (fun _ => rfl) (L.get_bind fun _ _ n => L.pure (by rw [n.level])) (fun a _ h => h ▸ hf a) rfl

omit L in
/-- Scopes are left one by one. -/
theorem leaveScopes (L : G.Core) (hc : G.Holds k Eq (Read.ask v .closeScope) (Read.ask w .closeScope))
    (hn : ∀ n, G.Holds k Eq (note (.line n)) (note (.line n)))
    (hl : ∀ n, G.Holds k Eq (modify fun s => { s with level := n } : ReadM σ PUnit)
      (modify fun t => { t with level := n }))
    (indent : Option Nat) : G.Holds k Eq (Read.leaveScopes v indent) (Read.leaveScopes w indent) := by
  have closed (n : Nat) : G.Holds k Eq (closeScopes v n) (closeScopes w n) := by
    induction n with
    | zero => exact L.pure rfl
    | succ n ih => exact L.bindEq hc fun _ => ih
  have noted : G.Holds k Eq (noteLine indent) (noteLine indent) := by
    cases indent with
    | none => exact L.pure rfl
    | some n => exact hn n
  refine L.bindEq noted fun _ => L.get_bind fun s t near => ?_
  dsimp only
  rw [near.level]
  exact L.bindEq (closed _) fun _ => .ite (hl _) (L.pure rfl)

end rows

end Core

theorem Moves.learnAll (L : G.Moves) (l : List (String × Ty)) :
    G.Holds k Eq (learnAll l) (learnAll l) := by
  induction l with
  | nil => exact L.pure rfl
  | cons e l ih => exact L.bindEq (L.learn e.1 e.2) fun _ => ih

namespace Laws

variable (L : G.Laws v w)

include L

theorem askThen {q q' : Request} (hq : RequestAlike G.text G.contents q q') (hb : (q.inBody && !q.isRemark) = true)
    (h : G.Holds k Q x y) : G.Holds k Q (Read.ask v q >>= fun _ => x) (Read.ask w q' >>= fun _ => y) :=
  L.bindEq (L.ask hq hb) fun _ => h

theorem lineThen (h : G.Holds k Q x y) :
    G.Holds k Q (Read.endLine v >>= fun _ => x) (Read.endLine w >>= fun _ => y) := L.bindEq L.endLine fun _ => h

theorem endLineInParens : G.Holds k Eq (endLineInParens v) (endLineInParens w) := by
  refine L.get_bind fun s t n => ?_
  rw [n.inParens]
  exact .ite L.endLine (L.pure rfl)

end Laws

/-! ## Between lines -/

namespace LineLaws

variable (L : G.LineLaws v w)

include L

theorem ifSame {kind : TokenKind} (h : G.Holds k Q x y) (h' : G.Holds k Q x' y') :
    G.Holds k Q (kindIs kind >>= fun f => if f = true then x else x')
      (kindIs kind >>= fun f => if f = true then y else y') :=
  L.bindEq (L.get_bind fun _ _ n => L.pure (by rw [L.same n.current])) fun _ => .ite h h'

theorem expectKind (kind : TokenKind) : G.Holds k Eq (expectKind kind) (expectKind kind) :=
  L.ifSame (L.less (L.pastMove (L.pure rfl))) (L.pure rfl)

theorem writeRemark (jumped : Nat) (r : Remark) :
    G.Holds k Eq (writeRemark v jumped r) (writeRemark w jumped r) := by
  refine .ite (L.bindEq (L.ask _ rfl) fun _ => ?_) ?_
  all_goals exact L.bindEq (L.ask _ (by cases r <;> rfl)) fun _ => L.ask _ rfl

theorem writePassed (p : Passed) : G.Holds k Eq (writePassed v p) (writePassed w p) := by
  unfold Read.writePassed
  cases p.remark with
  | some r => exact L.writeRemark _ r
  | none => exact L.ask _ rfl

/-- **Passing lines.** The comment that waits is the same on both sides. -/
theorem passStep {m n : Nat} (ih : ∀ p, G.Holds k Eq (passLines v m p) (passLines w n p)) (p : Passed) :
    G.Holds (k + 1) Eq (passLines v (m + 1) p) (passLines w (n + 1) p) := by
  have flush : G.Holds (k + 1) Eq (passLines.flush v p) (passLines.flush w p) := by
    unfold passLines.flush
    cases p.remark with
    | none => exact L.pure rfl
    | some r => exact L.bindEq (L.writeRemark _ r) fun _ => L.pure rfl
  refine L.bindToken fun t u h => ?_
  have indent : t.kind = .lineEnd → t.indent = u.indent := fun hk =>
    congrArg Token.numberOf (L.value h (L.same h) (by rw [hk]; decide))
  rw [← L.same h]
  generalize t.kind = kind at indent
  cases kind with
  | lineEnd =>
    rw [indent rfl]
    exact L.pastMove (ih _)
  | comment | longString => exact L.bindEq flush fun _ => L.pastToken fun _ => ih _
  | _ => exact L.pure rfl

theorem endLine : G.Holds k Eq (endLine v) (endLine w) := by
  have passed := L.less (k := k) (L.bounded (f := passLines v) (g := passLines w) (fun _ => rfl) (fun _ => rfl)
    (fun _ => L.passStep) {})
  unfold Read.endLine
  rw [← bind_assoc]
  exact L.bindEq passed fun p => L.bindEq (L.leaveScopes p.indent) fun _ => L.writePassed p

theorem comment : G.Holds k Eq (commentInLine v) (commentInLine w) :=
  L.ifSame (L.bindEq (L.ask _ rfl) fun _ => L.take fun _ => L.ask _ rfl) (L.pure rfl)

theorem headLine : G.Holds k Eq (do commentInLine v; Read.expectKind .lineEnd)
    (do commentInLine w; Read.expectKind .lineEnd) := L.bindEq L.comment fun _ => L.expectKind _

end LineLaws

end Logic

end Read

end GdScribe
