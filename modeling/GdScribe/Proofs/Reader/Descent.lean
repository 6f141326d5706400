import GdScribe.Proofs.Reader.Logic

/-!
# Two descents through a script

What a logic says of the rules that call each other, it says of every expression, statement and member
that is read with them. Where a token is taken before the rules are used again, there is one token less
to care for.

* `DefinitionsAlike`, `DeclarationAlike`, `MarkersAlike`: what is read on the way, up to texts.

Principal results: `RulesHold.expressed` and the lemmas before it; `RulesHold.statement`, `RulesHold.blocked`;
`RulesHold.plainItem` — members of a class; `Logic.ScriptLaws.script`.
-/

namespace GdScribe.Read

variable {σ τ : Type} {G : Logic σ τ} {v : Writer σ} {w : Writer τ} {k : Nat}

/-- The same parameters, and initial values that are alike. -/
def DefinitionsAlike (G : Logic σ τ) (a b : ParamDefinitions) : Prop :=
  a.params = b.params ∧ InitsAlike G.text G.contents a.inits b.inits

/-- Declarations that differ at most in their initial values. -/
structure DeclarationAlike (G : Logic σ τ) (a b : Declaration) : Prop where
  name : a.name = b.name
  type : a.type = b.type
  init : InitAlike G.text G.contents a.init b.init
  accessors : a.accessors = b.accessors

/-- Annotations that differ at most in the blank lines after them. -/
structure MarkerAlike (G : Logic σ τ) (a b : Marker) : Prop where
  name : a.name = b.name
  args : a.args = b.args
  spacing : G.text a.spacing b.spacing

/-- Annotations before a member that differ at most in the blank lines after the last one. -/
structure MarkersAlike (G : Logic σ τ) (a b : Markers) : Prop where
  last : Option.Rel (MarkerAlike G) a.last b.last
  onready : a.onready = b.onready

/-- What is said of two sets of rules. -/
structure RulesHold (G : Logic σ τ) (k : Nat) (r : Rules σ) (r' : Rules τ) : Prop where
  expression : G.Holds k (TypedAlike G) r.expression r'.expression
  ternary : G.Holds k (TypedAlike G) r.ternary r'.ternary
  boolean : G.Holds k (TypedAlike G) r.boolean r'.boolean
  sum : G.Holds k (TypedAlike G) r.sum r'.sum
  reference : ∀ t b, G.Holds k (TypedAlike G) (r.reference t b) (r'.reference t b)
  follow : ∀ t, G.Holds k (TypedAlike G) (r.follow t) (r'.follow t)
  block : G.Holds k Eq r.block r'.block

section refl

variable (L : G.Moves)

include L

theorem Logic.Moves.definitions_refl (d : ParamDefinitions) : DefinitionsAlike G d d := ⟨rfl, L.inits_refl _⟩

theorem Logic.Moves.assigns : G.Holds k Eq assigns assigns := by
  refine L.bindToken fun t u h => L.pure ?_
  have word : (t.value == "=") = (u.value == "=") := L.word_beq h rfl
  have kind : (t.kind == .arithmetic) = (u.kind == .arithmetic) := L.kind_beq h rfl
  rw [word, kind]
  by_cases hk : u.kind = .arithmetic
  · have ht := (L.kind_iff h rfl).mpr hk
    rw [L.value h (ht.trans hk.symm) (by rw [ht]; decide)]
  · rw [beq_false_of_ne hk, Bool.false_and, Bool.false_and]

theorem Logic.Moves.markerArguments : G.Holds k Eq markerArguments markerArguments :=
  L.ifExpect rfl (L.bindEq (L.valuesUpTo rfl fun h => L.kind_beq h rfl) fun _ => L.skip rfl (L.pure rfl)) (L.pure rfl)

end refl

/-! ## Expressions -/

namespace RulesHold

variable (L : G.Laws v w) {r : Rules σ} {r' : Rules τ} (H : RulesHold G k r r')

include L H

theorem paramInit (name : String) (declared : Ty) {s t : Table Expr} (h : InitsAlike G.text G.contents s t) :
    G.Holds k (fun a b => a.1 = b.1 ∧ InitsAlike G.text G.contents a.2 b.2)
      (paramInit r name declared s) (paramInit r' name declared t) :=
  L.ifExpect rfl (L.bindTyped H.expression fun _ _ _ he => L.pure ⟨rfl, h.put name he⟩) (L.pure ⟨rfl, h⟩)

/-- One line end or one parameter. -/
theorem paramRound {d d' : ParamDefinitions} (hd : DefinitionsAlike G d d') :
    G.Holds k (StepAlike (DefinitionsAlike G)) (do
        if ← expectKind .lineEnd then return .yield d
        return .yield (← paramDefinition r d))
      (do
        if ← expectKind .lineEnd then return .yield d'
        return .yield (← paramDefinition r' d')) := by
  have paramType : G.Holds k Eq (paramType : ReadM σ Ty) paramType :=
    L.ifExpect rfl (L.ifKind rfl L.type (L.pure rfl)) (L.pure rfl)
  simp only [paramDefinition, bind_assoc]
  refine L.lineOr (L.pure hd) fun name => L.bindEq paramType fun declared => ?_
  refine L.bind (H.paramInit L name declared hd.2) (fun a => ⟨rfl, L.inits_refl a.2⟩) ?_
  rintro ⟨t, inits⟩ ⟨_, inits'⟩ ⟨rfl, h⟩
  refine L.skip rfl (L.pure ⟨?_, h⟩)
  rw [hd.1]

theorem paramDefinitions {x : String} (hx : G.Holds k Eq (expect x) (expect x)) :
    G.Holds k (DefinitionsAlike G) (paramDefinitions r x) (paramDefinitions r' x) :=
  L.untilWord L.definitions_refl hx (fun _ _ => H.paramRound L) (L.definitions_refl {})

theorem subscription (t : Ty) : G.Holds k (TypedAlike G) (subscription r t) (subscription r' t) := by
  refine L.bindTyped H.expression fun _ _ _ hk => L.skip rfl ?_
  exact L.bindTyped (H.follow _) fun _ _ _ he => L.pure ⟨rfl, .seq (.index hk) he⟩

theorem membership (negated : Bool) {t : Ty} {e e' : Expr} (he : ExprAlike G.text G.contents e e') :
    G.Holds k (TypedAlike G) (membership r negated (t, e)) (membership r' negated (t, e')) := by
  refine L.bindEq (L.expect rfl) fun _ => .ite (L.bindEq L.reportNot fun _ => ?_) ?_
  all_goals exact L.bindTyped H.expression fun u _ _ h => L.pure ⟨rfl, .contains negated t u he h⟩

theorem callArguments :
    G.Holds k (ExprsAlike G.text G.contents) (callArguments v r) (callArguments w r') := by
  refine L.bind (L.untilWord L.exprs_refl (L.expect rfl) (fun as bs h => ?_) .nil) L.exprs_refl
    fun _ _ h => L.pure h.reverse
  exact L.bindTyped H.expression fun _ e e' he => L.skip rfl <| L.lineThen <| L.pure (.cons he h)

theorem arrayItems : G.Holds k Eq (arrayItems v r) (arrayItems w r') := by
  refine L.lineThen <| L.untilWord (fun _ => rfl) (L.expect rfl) (fun _ _ _ => ?_) rfl
  exact L.bindTyped H.expression fun _ _ _ he => L.askThen (.arrayItem he) rfl <| L.skip rfl <|
    L.lineThen (L.pure rfl)

theorem dictionaryEntries : G.Holds k Eq (dictionaryEntries v r) (dictionaryEntries w r') := by
  refine L.lineThen <| L.untilWord (fun _ => rfl) (L.expect rfl) (fun _ _ _ => ?_) rfl
  refine L.bindTyped H.expression fun _ _ _ hk => L.skip rfl <| L.bindTyped H.expression fun _ _ _ he => ?_
  exact L.askThen (.dictionaryItem hk he) rfl <| L.skip rfl <| L.lineThen (L.pure rfl)

theorem grouped : G.Holds k (TypedAlike G) (grouped v r) (grouped w r') := by
  refine L.get_bind fun s t n => ?_
  rw [n.inParens]
  refine L.bindEq (L.setParens true) fun _ => L.lineThen <| L.bindTyped H.expression fun ty e e' he => ?_
  refine L.lineThen <| L.skip rfl <| .ite ?_ (L.pure ⟨rfl, .group he⟩)
  exact L.bindEq (L.setParens false) fun _ => L.pure ⟨rfl, .group he⟩

theorem lambda : G.Holds k (TypedAlike G) (lambda v r) (lambda w r') := by
  refine L.ifKind rfl (L.take fun _ => ?_) ?_
  all_goals
    refine L.skip rfl <| L.bind (H.paramDefinitions L (L.expect rfl)) L.definitions_refl fun d d' h => L.skip rfl ?_
    refine L.bindEq L.closure fun _ => L.bindText (L.onPage H.block) fun _ c c' hc => L.pure ⟨rfl, ?_⟩
    rw [h.1]
    exact .lambda _ hc

theorem call (name : String) (caller : Ty) :
    G.Holds k (TypedAlike G) (call v r name caller) (call w r' name caller) := by
  refine L.get_bind fun s t n => ?_
  rw [n.callType, n.globals, n.contains]
  refine L.bind (H.callArguments L) L.exprs_refl fun as bs h => ?_
  refine L.bindTyped (H.follow _) fun ty e e' he => L.pure ⟨rfl, .seq ?_ he⟩
  split
  · exact .construct name _ h
  · exact .call _ name h

/-! From here on each action takes a token before it comes back to the rules. -/

theorem followed (t : Ty) : G.Holds (k + 1) (TypedAlike G) (Read.follow v r t) (Read.follow w r' t) :=
  L.pastWord rfl (H.reference t false) <| L.pastWord rfl (H.call L "" t) <|
    L.pastWord rfl (H.subscription L t) (L.pure ⟨rfl, .nothing⟩)

theorem referred (owner : Ty) (singleton : Bool) :
    G.Holds (k + 1) (TypedAlike G) (Read.reference v r owner singleton) (Read.reference w r' owner singleton) := by
  refine L.pastToken fun name => L.get_bind fun s t n => ?_
  rw [n.memberInfo]
  refine .ite (L.skip rfl ?_) ?_
  · refine L.bind (H.callArguments L) L.exprs_refl fun as bs h => L.pure ⟨rfl, ?_⟩
    split
    · exact .emitSignal _ h
    · split
      · exact .connectSignal _ h
      · exact .nothing
  refine L.ifExpect rfl ?_ <| L.ifExpect rfl ?_ <| L.ifExpect rfl ?_ <| L.bindEq L.assigns fun _ => .ite ?_ ?_
  · exact L.bindTyped (H.call L name owner) fun _ _ _ he => L.pure ⟨rfl, .seq (.access _) he⟩
  · exact L.bindTyped (H.reference _ singleton) fun _ _ _ he => L.pure ⟨rfl, .seq (.access _) he⟩
  · exact L.bindTyped (H.subscription L owner) fun _ _ _ he => L.pure ⟨rfl, .seq (.access _) he⟩
  · exact L.take fun op => L.bindTyped H.expression fun _ _ _ he => L.pure ⟨rfl, .assign _ op he⟩
  · refine L.get_bind fun s t n => ?_
    rw [n.className]
    exact L.pure (L.typed_refl _)

theorem markedValue {t t' : TokenKind} (ht : t = .text ↔ t' = .text) :
    G.Holds (k + 1) (TypedAlike G) (markedValue v r t) (markedValue w r' t') := by
  refine L.pastWord rfl ?_ <| L.pastWord rfl ?_ <| L.pastWord rfl (H.grouped L) <| L.ifExpect rfl ?_ <|
    L.ifExpect rfl ?_ <| L.pastWord rfl (H.lambda L) <| .iteIff ht ?_ (L.pure ⟨rfl, .nothing⟩)
  · exact L.bind (L.bracketed (H.arrayItems L)) L.text_refl fun _ _ h => L.pure ⟨rfl, .array h⟩
  · exact L.bind (L.bracketed (H.dictionaryEntries L)) L.text_refl fun _ _ h => L.pure ⟨rfl, .dictionary h⟩
  · exact L.take fun _ => L.pure ⟨rfl, .node _⟩
  · exact L.take fun _ => L.pure ⟨rfl, .node _⟩
  · exact L.pastToken fun name => L.ifExpect rfl (H.call L name none) (L.bareName name)

theorem value : G.Holds (k + 1) (TypedAlike G) (value v r) (value w r') := by
  refine L.bindEq L.endLineInParens fun _ => L.bindToken fun t u h => ?_
  have truth : t.value = "true" ∨ t.value = "false" ↔ u.value = "true" ∨ u.value = "false" :=
    or_congr (L.word h "true" (by decide)) (L.word h "false" (by decide))
  have literal (type : Ty) (f : String → String) :
      G.Holds (k + 1) (TypedAlike G) (do return (type, .literal (f (← consume))))
        (do return (type, .literal (f (← consume)))) := L.take fun _ => L.pure ⟨rfl, .literal _⟩
  refine .iteIff (or_congr (L.kind_iff h rfl) (L.kind_iff h rfl)) (literal _ id) <|
    .iteIff (L.kind_iff h rfl) (literal ..) <| .iteIff truth (literal _ id) <|
    .iteIff (or_congr (L.kind_iff h rfl) (L.kind_iff h rfl)) ?_ (H.markedValue L (L.kind_iff h rfl))
  exact L.bind L.consumeString L.contents_refl fun _ _ h => L.pure ⟨rfl, .text h⟩

theorem dereference : G.Holds (k + 1) (TypedAlike G) (dereference v r) (dereference w r') := by
  refine L.bindTyped (H.value L) fun t e e' he => ?_
  refine L.pastWord rfl ?_ <| L.pastWord rfl ?_ (L.pure ⟨rfl, he⟩)
  · refine L.bindTyped (H.reference ..) fun _ _ _ h => L.pure ⟨rfl, ?_⟩
    split
    · exact h
    · exact .seq he h
  · exact L.bindTyped (H.subscription L _) fun _ _ _ h => L.pure ⟨rfl, .seq he h⟩

theorem summed : G.Holds (k + 1) (TypedAlike G) (Read.sum v r) (Read.sum w r') := by
  refine L.bindTyped (H.dereference L) fun t e e' he => L.bindEq L.endLineInParens fun _ => ?_
  refine L.ifKind rfl (L.pastToken fun op => ?_) (L.pure ⟨rfl, he⟩)
  exact L.bindTyped H.sum fun _ _ _ h => L.pure ⟨rfl, .binary op he h⟩

theorem arithmetic : G.Holds (k + 1) (TypedAlike G) (arithmetic v r) (arithmetic w r') := by
  refine L.ifKind rfl (L.take fun op => ?_) (H.summed L)
  exact L.bindTyped (H.summed L) fun _ _ _ h => L.pure ⟨rfl, .unary op h⟩

theorem compared : G.Holds (k + 1) (TypedAlike G) (Read.boolean v r) (Read.boolean w r') := by
  refine L.bindTyped (H.arithmetic L) fun t e e' he => L.ifKind rfl (L.pastToken fun op => ?_) <|
    L.ifExpect rfl ?_ <| L.pastWord rfl (H.membership L true he) <| L.pastWord rfl (H.membership L false he) <|
    L.pure ⟨rfl, he⟩
  · exact L.bindTyped H.boolean fun _ _ _ h => L.pure ⟨rfl, .binary op he h⟩
  · exact L.bindEq L.type fun _ => L.pure ⟨rfl, .isType _ he⟩

theorem chosen : G.Holds (k + 1) (TypedAlike G) (Read.ternary v r) (Read.ternary w r') := by
  refine L.bindTyped (H.compared L) fun t e e' he => L.pastWord rfl ?_ (L.pure ⟨rfl, he⟩)
  refine L.bindTyped (L.less (H.compared L)) fun _ _ _ hc => L.skip rfl ?_
  exact L.bindTyped H.ternary fun _ _ _ h => L.pure ⟨rfl, .choice hc he h⟩

theorem expressed : G.Holds (k + 1) (TypedAlike G) (Read.expression v r) (Read.expression w r') :=
  L.bindTyped (H.chosen L) fun _ _ _ he =>
    L.ifExpect rfl (L.bindEq L.type fun _ => L.pure ⟨rfl, he⟩) (L.pure ⟨rfl, he⟩)

/-! ## Statements -/

theorem declaration (name : String) :
    G.Holds (k + 1) (DeclarationAlike G) (declaration v r name) (declaration w r' name) := by
  refine L.bindEq (.ite L.consume (L.pure rfl)) fun name => L.bindEq (L.expect rfl) fun colon => ?_
  refine L.bindEq (L.kindIs rfl) fun isText => L.bindEq (L.kindIs rfl) fun isAssign => ?_
  refine L.bindEq (.ite L.type (L.pure rfl)) fun declared => L.ifExpect rfl ?_ (L.pure ⟨rfl, rfl, .none, rfl⟩)
  exact L.bindTyped (H.expressed L) fun _ _ _ he => L.pure ⟨rfl, rfl, .some he, rfl⟩

theorem declared {α : Type} {Q : α → α → Prop} {name : String} {f : Declaration → ReadM σ α}
    {g : Declaration → ReadM τ α} (hf : ∀ a b, DeclarationAlike G a b → G.Holds (k + 1) Q (f a) (g b)) :
    G.Holds (k + 1) Q (Read.declaration v r name >>= f) (Read.declaration w r' name >>= g) :=
  L.bind (H.declaration L name) (fun _ => ⟨rfl, rfl, L.init_refl _, rfl⟩) hf

theorem declareLocal : G.Holds (k + 1) Eq (declareLocal v r) (declareLocal w r') := by
  refine H.declared L fun a b h => ?_
  rw [h.name, h.type]
  exact L.bindEq (L.learn b.name _) fun _ => L.ask (.localVariable _ _ h.init) rfl

theorem ifBranches (t : Ty) : G.Holds k Eq (ifBranches v r t) (ifBranches w r' t) := by
  refine L.bindEq (L.whileExpected rfl (fun _ => rfl) (fun t _ h => h ▸ ?_) rfl) fun t => ?_
  · refine L.bindTyped (L.less (H.compared L)) fun _ _ _ he => L.askThen (.elifHead he) rfl <| L.skip rfl ?_
    exact L.bindEq H.block fun _ => L.pure rfl
  · refine L.bindEq (L.expectPair rfl rfl) fun _ => .ite ?_ (L.pure rfl)
    exact L.askThen (.same _) rfl <| L.bindEq H.block fun _ => L.pure rfl

theorem ifStatement : G.Holds k Eq (ifStatement v r) (ifStatement w r') :=
  L.bindTyped (L.less (H.compared L)) fun _ _ _ he => L.askThen (.ifHead he) rfl <| L.skip rfl <|
    L.bindEq H.block fun t => H.ifBranches L t

theorem whileStatement : G.Holds k Eq (whileStatement v r) (whileStatement w r') :=
  L.bindTyped (L.less (H.compared L)) fun _ _ _ he => L.askThen (.whileHead he) rfl <| L.skip rfl H.block

theorem forStatement : G.Holds k Eq (forStatement v r) (forStatement w r') :=
  L.take fun name => L.bindEq (L.typeAfter rfl) fun _ => L.skip rfl <|
    L.bindTyped (L.less (H.expressed L)) fun _ _ _ he => L.bindEq (L.learn name _) fun _ =>
      L.askThen (.forHead name _ he) rfl <| L.skip rfl H.block

theorem matchCase (byJump : Bool) {c c' : String} (hc : G.text c c') :
    G.Holds k Eq (matchCase v r byJump c) (matchCase w r' byJump c') := by
  have pattern : G.Holds k (InitAlike G.text G.contents) (casePattern v r) (casePattern w r') :=
    L.ifExpect rfl (L.pure .none) (L.bindTyped (L.less (H.expressed L)) fun _ _ _ he => L.pure (.some he))
  have guard : G.Holds k (InitAlike G.text G.contents) (caseGuard v r) (caseGuard w r') :=
    L.ifExpect rfl (L.bindTyped (L.less (H.compared L)) fun _ _ _ he => L.pure (.some he)) (L.pure .none)
  refine L.lineThen <| L.bind pattern L.init_refl fun p p' hp => L.bind guard L.init_refl fun g g' hg => ?_
  refine L.skip rfl <| L.bindText (L.onPage H.block) fun t d d' hd => ?_
  exact L.askThen (.matchCase byJump hc hp hg hd) rfl (L.pure rfl)

theorem caseRounds (byJump : Bool) (level : Nat) {c c' : String} (hc : G.text c c') :
    G.Holds k Eq (caseRounds v r byJump level c) (caseRounds w r' byJump level c') :=
  L.whileLevel level _ fun _ => L.bindEq (H.matchCase L byJump hc) fun _ => L.pure rfl

theorem matchStatement : G.Holds k Eq (matchStatement v r) (matchStatement w r') := by
  rw [matchStatement_eq, matchStatement_eq]
  exact L.bindTyped (L.less (H.expressed L)) fun _ _ _ he => L.bindText (L.choiceHead _ he) fun _ _ _ hc =>
    H.caseRounds L _ _ hc

theorem returnStatement : G.Holds (k + 1) Eq (returnStatement v r) (returnStatement w r') :=
  L.bindTyped (H.expressed L) fun _ _ _ he => L.askThen (.returnHead he) rfl <| L.askThen (.same _) rfl (L.pure rfl)

theorem awaitStatement : G.Holds (k + 1) Eq (awaitStatement v r) (awaitStatement w r') :=
  L.bindText (L.onPage (L.bindTyped (H.expressed L) fun _ _ _ he => L.ask (.expr he) rfl)) fun _ _ _ hc => L.awaits hc

theorem reassignment : G.Holds (k + 1) Eq (reassignment v r) (reassignment w r') := by
  refine L.bindTyped (H.expressed L) fun _ _ _ he => L.ifExpect rfl ?_ ?_
  · refine L.lineThen <| L.bindTyped (H.expressed L) fun _ _ _ hv => ?_
    exact L.askThen (.expr he) rfl <| L.askThen (.assignment hv) rfl <| L.ask (.same _) rfl
  · exact L.askThen (.expr he) rfl <| L.ask (.same _) rfl

/-- **One statement.** The word with which it starts is taken before a block in it is read. -/
theorem statement : G.Holds (k + 1) Eq (statement v r) (statement w r') := by
  have quiet {x : ReadM σ Unit} {y : ReadM τ Unit} (h : G.Holds (k + 1) Eq x y) :
      G.Holds (k + 1) Eq (do x; return (none : Ty)) (do y; return none) := L.bindEq h fun _ => L.pure rfl
  have declare : G.Holds (k + 1) Eq (do Read.declareLocal v r; ask v .endStatement; return (none : Ty))
      (do Read.declareLocal w r'; ask w .endStatement; return none) :=
    L.bindEq (H.declareLocal L) fun _ => quiet (L.ask (.same _) rfl)
  refine L.ifExpect rfl (L.pure rfl) <| L.ifExpect rfl declare <| L.ifExpect rfl declare <|
    L.pastWord rfl (H.ifStatement L) <| L.pastWord rfl (H.whileStatement L) <|
    L.pastWord rfl (H.forStatement L) <| L.pastWord rfl (H.matchStatement L) <|
    L.ifExpect rfl (H.returnStatement L) <| L.ifExpect rfl (quiet (H.awaitStatement L)) <|
    L.ifExpect rfl (quiet (L.ask (.same _) rfl)) <| L.ifExpect rfl (quiet (L.ask (.same _) rfl)) <|
    L.bindToken fun t u h => .iteIff ?_ (L.pure rfl) (quiet (H.reassignment L))
  rcases L.kind h with hk | ⟨-, ht, hu⟩
  · rw [hk]
  · simp [ht, hu]

theorem blocked : G.Holds (k + 1) Eq (Read.block v r) (Read.block w r') := by
  refine L.bindEq L.openScope fun level => L.whileLevel level _ fun _ => ?_
  exact L.bindEq (H.statement L) fun _ => L.lineThen (L.pure rfl)

theorem accessor? :
    G.Holds (k + 1) (Option.Rel (AccessorAlike G.text)) (accessor? v r) (accessor? w r') := by
  have method (f : String → Accessor) (hf : ∀ m, AccessorAlike G.text (f m) (f m)) :
      G.Holds k (Option.Rel (AccessorAlike G.text)) (do return some (f (← consume)) : ReadM σ _)
        (do return some (f (← consume))) := L.take fun m => L.pure (.some (hf m))
  refine L.pastWord rfl (L.ifExpect rfl (method _ .getterMethod) <| L.ifExpect rfl ?_ (L.pure .none)) <|
    L.pastWord rfl (L.ifExpect rfl (method _ .setterMethod) <| L.ifExpect rfl ?_ (L.pure .none)) (L.pure .none)
  · exact L.bindText (L.onPage H.block) fun _ _ _ hc => L.pure (.some (.getter hc))
  · refine L.take fun value => L.bindEq (L.expectPair rfl rfl) fun _ => ?_
    exact L.bindText (L.onPage H.block) fun _ _ _ hc => L.pure (.some (.setter value hc))

theorem signalParams : G.Holds k Eq (signalParams r) (signalParams r') :=
  L.ifExpect rfl (L.bind (H.paramDefinitions L (L.expect rfl)) L.definitions_refl fun _ _ h => L.pure h.1) (L.pure rfl)

end RulesHold

/-! ## Members -/

section members

variable (L : G.MemberLaws v w) {r : Rules σ} {r' : Rules τ} (H : RulesHold G k r r')

include L

namespace Logic.MemberLaws

theorem markers_refl : ∀ a, MarkersAlike G a a
  | ⟨none, _⟩ => ⟨.none, rfl⟩
  | ⟨some _, _⟩ => ⟨.some ⟨rfl, rfl, L.text_refl _⟩, rfl⟩

theorem marker : G.Holds k (MarkerAlike G) (marker v) (marker w) := by
  refine L.take fun name => L.bindEq L.markerArguments fun args => L.bindText (L.onPage L.endLine) fun _ _ _ hc => ?_
  refine L.bindEq (L.valueIs rfl) fun _ => .ite (L.bindEq (L.askMember (.marker name args none hc) rfl) fun _ => ?_) ?_
  all_goals exact L.pure ⟨rfl, rfl, hc⟩

theorem nextMarker {a b : Markers} (h : MarkersAlike G a b) :
    G.Holds k (StepAlike (MarkersAlike G)) (nextMarker v a) (nextMarker w b) := by
  refine L.ifExpect rfl (L.lineThen (L.pure ⟨h.last, rfl⟩)) ?_
  exact L.bind L.marker (fun a => ⟨rfl, rfl, L.text_refl _⟩) fun _ _ h => L.pure ⟨.some h, rfl⟩

theorem markers : G.Holds k (MarkersAlike G) (markers v) (markers w) :=
  L.whileExpected rfl L.markers_refl (fun _ _ => L.nextMarker) (L.markers_refl {})

theorem writeMarker (member : String) {a b : Option Marker} (h : Option.Rel (MarkerAlike G) a b) :
    G.Holds k Eq (writeMarker v member a) (writeMarker w member b) := by
  cases h with
  | none => exact L.pure rfl
  | some h =>
    show G.Holds k Eq (if _ then _ else _) (if _ then _ else _)
    rw [h.name, h.args]
    exact .ite (L.askMember (.marker _ _ _ h.spacing) rfl) (L.pure rfl)

end Logic.MemberLaws

include H

namespace RulesHold

theorem accessors {p q : Property} (hp : PropertyAlike G.text G.contents p q) (n : Nat) :
    G.Holds (k + 1) (List.Forall₂ (AccessorAlike G.text)) (accessors v r p n) (accessors w r' q n) := by
  induction n with
  | zero => exact L.pure .nil
  | succ n ih =>
    have refl (a : Option Accessor) : Option.Rel (AccessorAlike G.text) a a := by
      cases a with
      | none => exact .none
      | some a => exact .some (.refl L.text_refl a)
    refine L.bind (H.accessor? L.toLaws) refl fun a b h => L.bindEq ?_ fun _ => L.skip rfl <|
      L.bind ih (fun _ => List.forall₂_same.mpr fun a _ => .refl L.text_refl a) fun as bs hs => L.pure ?_
    · cases h with
      | none => exact L.pure rfl
      | some h => exact L.askMember (.accessor hp h) rfl
    · cases h with
      | none => exact hs
      | some h => exact .cons h hs

theorem writeProperty {p q : Property} (hp : PropertyAlike G.text G.contents p q) (accessible : Bool) :
    G.Holds (k + 1) Eq (writeProperty v r p accessible) (writeProperty w r' q accessible) := by
  refine L.bindEq (L.expect rfl) fun _ => .ite ?_ ?_
  · rw [← bind_assoc, ← bind_assoc (commentInLine w)]
    exact L.bindEq L.headLine fun _ => L.resuming (L.withAccessors hp (H.accessors L hp 2))
  · exact L.bindEq (L.askMember (.property false hp) rfl) fun _ => L.ask (.same _) rfl

theorem declareProperty (name : String) (flag : PropertyFlag) :
    G.Holds (k + 1) Eq (declareProperty v r name flag) (declareProperty w r' name flag) := by
  refine H.declared L.toLaws fun a b h => ?_
  rw [h.name, h.type, h.accessors]
  refine L.bindEq (L.record _ nofun) fun _ => H.writeProperty L ?_ _
  exact ⟨rfl, rfl, h.init, rfl, rfl, rfl⟩

theorem enumeration : G.Holds k Eq (enumeration v r) (enumeration w r') := by
  refine L.bindEq (L.ifKind rfl L.consume (L.pure rfl)) fun name => L.skip rfl ?_
  refine L.bind (H.paramDefinitions L.toLaws (L.expect rfl)) L.definitions_refl fun d d' h => ?_
  rw [h.1]
  exact L.bindEq (L.record _ nofun) fun _ => L.askMember (.enumeration name _ h.2) rfl

theorem method (static : Bool) : G.Holds k Eq (method v r static) (method w r' static) := by
  refine L.take fun name => L.skip rfl <|
    L.bind (H.paramDefinitions L.toLaws (L.expect rfl)) L.definitions_refl fun d d' h => ?_
  rw [h.1]
  refine L.bindEq (L.learnAll _) fun _ => L.bindEq (L.typeAfter rfl) fun declared => L.skip rfl ?_
  refine L.bindText (L.onPage (L.less (H.blocked L.toLaws))) fun t c c' hc => ?_
  have same : MethodAlike G.text G.contents ⟨name, d'.params, d.inits, declared.orElse t, c, static, false⟩
      ⟨name, d'.params, d'.inits, declared.orElse t, c', static, false⟩ := ⟨rfl, rfl, h.2, rfl, hc, rfl, rfl⟩
  exact L.putMethod same

theorem signal : G.Holds k Eq (signal v r) (signal w r') :=
  L.take fun _ => L.bindEq (L.record _ nofun) fun _ => L.bindEq (H.signalParams L.toLaws) fun _ =>
    L.askMember (.same _) rfl

theorem markedProperty (static : Bool) {a b : Markers} (h : MarkersAlike G a b) :
    G.Holds (k + 1) Eq (markedProperty v r static a) (markedProperty w r' static b) := by
  unfold Read.markedProperty
  rw [h.onready]
  refine L.bindEq (L.expect rfl) fun _ => L.bindEq (.ite (L.pure rfl) (L.expect rfl)) fun _ => .ite ?_ (L.pure rfl)
  exact L.take fun name => L.bindEq (L.writeMarker name h.last) fun _ => H.declareProperty L name _

theorem property (static : Bool) : G.Holds (k + 1) Eq (property v r static) (property w r' static) :=
  L.bind L.markers L.markers_refl fun _ _ => H.markedProperty L static

/-- **Members** of a class that are no classes. -/
theorem plainItem (static : Bool) : G.Holds (k + 1) Eq (plainItem v r static) (plainItem w r' static) :=
  L.pastWord rfl (H.enumeration L) <| L.pastWord rfl (H.method L static) <| L.pastWord rfl (H.signal L) <|
    H.property L static

end RulesHold

end members

/-! ## Classes and scripts -/

/-- What a logic has to say about members as wholes, with the moves between them. -/
structure Logic.WholeLaws (G : Logic σ τ) (k : Nat) (v : Writer σ) (w : Writer τ) (r : Rules σ) (r' : Rules τ) : Prop
    extends G.Core where
  /-- An inner class is read after a word of its own. -/
  item : ∀ {j x y} static, j ≤ k → G.Holds j Eq x y → G.Holds (j + 1) Eq (item v r static x) (item w r' static y)
  announced : ∀ {j} {α : Type} {Q : α → α → Prop} {x y}, G.Holds j Q x y →
    G.Holds j Q (get >>= fun s => note (.member s.firstWords) >>= fun _ => x)
      (get >>= fun t => note (.member t.firstWords) >>= fun _ => y)
  note : ∀ {j} n, n.isMark = true → G.Holds j Eq (note n) (note n)
  trace : ∀ {j} line, G.Holds j Eq (trace line) (trace line)
  endLine : ∀ {j}, G.Holds j Eq (endLine v) (endLine w)
  recover : G.Holds (k + 1) Eq (recover v r) (recover w r')

/-- What a logic has to say about the start and the end of a script. -/
structure Logic.ScriptLaws (G : Logic σ τ) (k : Nat) (v : Writer σ) (w : Writer τ) (r : Rules σ) (r' : Rules τ) : Prop
    extends G.WholeLaws k v w r r' where
  isTool : ∀ {j} b, G.Holds j Eq (modify fun s => { s with isTool := b } : ReadM σ PUnit)
    (modify fun t => { t with isTool := b })
  startScript : ∀ {j} name base, G.Holds j Eq (startClass v name base true) (startClass w name base true)
  endScript : ∀ {j}, G.Holds j Eq (Read.ask v .endScript) (Read.ask w .endScript)

namespace Logic.WholeLaws

variable {r : Rules σ} {r' : Rules τ} (L : G.WholeLaws k v w r r')

include L

theorem member {j : Nat} (hj : j ≤ k) {x : ReadM σ Unit} {y : ReadM τ Unit} (h : G.Holds j Eq x y) :
    G.Holds (j + 1) Eq (member v r x) (member w r' y) :=
  L.ifExpect rfl (L.bindEq (L.note _ rfl) fun _ => L.pure rfl) <| L.bindEq (L.expect rfl) fun static =>
    L.bindEq (L.item static hj h) fun _ => L.bindEq L.endLine fun _ => L.pure rfl

/-- **Classes.** Each inner class takes a token. -/
theorem classStep {j m n : Nat} (hj : j ≤ k) (ih : G.Holds j Eq (classBodyWithin v r m) (classBodyWithin w r' n)) :
    G.Holds (j + 1) Eq (classBodyWithin v r (m + 1)) (classBodyWithin w r' (n + 1)) := by
  refine L.get_bind fun s t near => ?_
  rw [near.level]
  exact L.whileLevel _ _ fun _ => L.bindEq (L.announced (L.member hj ih)) fun _ => .ite (L.pure rfl) (L.pure rfl)

theorem classBody : G.Holds (k + 1) Eq (classBody v r) (classBody w r') :=
  L.bounded (f := fun n (_ : Unit) => classBodyWithin v r n) (g := fun n _ => classBodyWithin w r' n)
    (fun _ => rfl) (fun _ => rfl) (fun hj ih _ => L.classStep hj (ih ())) ()

theorem scriptBody : G.Holds k Eq (scriptBody v r) (scriptBody w r') := by
  refine L.bindEq ?_ fun _ => L.pure rfl
  refine L.whileMoving (fun _ => rfl) (L.pure rfl) (fun tries _ h => h ▸ .ite ?_ (L.pure rfl)) rfl
  refine L.bindEq (L.less L.classBody) fun _ => L.ifKind rfl ?_ ?_
  · exact L.bindEq (L.trace _) fun _ => L.pure rfl
  · exact L.bindEq (L.less L.recover) fun _ => L.pure rfl

end Logic.WholeLaws

namespace Logic.ScriptLaws

variable {r : Rules σ} {r' : Rules τ} (L : G.ScriptLaws k v w r r')

include L

theorem header {j : Nat} (name : String) : G.Holds j Eq (header v name) (header w name) := by
  have line {α : Type} {Q : α → α → Prop} {x : ReadM σ α} {y : ReadM τ α} (h : G.Holds j Q x y) :
      G.Holds j Q (endLine v >>= fun _ => x) (endLine w >>= fun _ => y) := L.bindEq L.endLine fun _ => h
  have lineName {x : String} (hx : Tested x) (default : String) :
      G.Holds j Eq (lineName v x default) (lineName w x default) :=
    L.ifExpect hx (L.take fun _ => line (L.pure rfl)) (L.pure rfl)
  refine L.bindEq (L.note _ rfl) fun _ => line <| L.bindEq (L.expectPair rfl rfl) fun _ =>
    L.bindEq (L.isTool _) fun _ => line <| L.bindEq (lineName rfl _) fun _ => L.bindEq (lineName rfl _) fun _ => ?_
  exact L.bindEq (L.ifExpect rfl L.consume (L.pure rfl)) fun _ => L.bindEq (L.startScript ..) fun _ => L.endLine

/-- **Scripts.** -/
theorem script (name : String) : G.Holds k Eq (script v r name) (script w r' name) :=
  L.bindEq (L.header name) fun _ => L.bindEq L.scriptBody fun _ => L.endScript

end Logic.ScriptLaws

end GdScribe.Read
