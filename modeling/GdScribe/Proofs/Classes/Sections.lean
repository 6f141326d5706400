import GdScribe.Proofs.Classes.Register

/-!
# The declarations of classes in C++

The declaration of a class grows piece by piece, while classes in it are declared on their own. Each piece stands in
the section that it belongs to.

* `Declaration`: the text of a declaration: labels, members and remarks, each in its section.
* `Listing`: the declarations of a script: a class is declared when it ends.
* `Enlarges`: what becomes of the classes of a script when the current one goes on, by some members.
* `loosely`, `supplying`: the manners of actions that write line ends only, and that declare nothing which stands in the
  script.

Principal results: `serve_enlarges`, `declares_of_session` and `run_keeps_sections`.
-/

namespace GdScribe

/-- Whether a request may have its text in the declaration of a class. -/
def Request.declares : Request → Bool
  | .property _ _ | .method _ | .enumeration _ _ _ | .signal _ _ | .comment _ | .longComment _ => true
  | _ => false

/-- Whether a class ends by a request. -/
def Request.ends : Request → Bool
  | .endClass _ | .endScript => true
  | _ => false

namespace CPlusPlus

open Target

variable {z : Settings}

/-! ## Declarations -/

/-- The base with which a class was defined. -/
def baseOf (c : String) : List Request → Option String
  | [] => none
  | .defineClass name base _ _ :: qs => if name = c then some base else baseOf c qs
  | _ :: qs => baseOf c qs

/-- What was asked for in a class since it was defined. -/
def membersOf (c : String) : List Request → List Request
  | [] => []
  | .defineClass name _ _ _ :: qs => if name = c then [] else membersOf c qs
  | q :: qs => membersOf c qs ++ if enteredLast qs = c then [q].filter (·.declares) else []

variable {q : Request} {o : State} {qs : List Request}

theorem membersOf_cons (c : String) (hd : q.DefinesNone)
    (qs : List Request) : baseOf c (q :: qs) = baseOf c qs ∧
      membersOf c (q :: qs) = membersOf c qs ++ if enteredLast qs = c then [q].filter (·.declares) else [] := by
  cases q <;> first | exact ⟨rfl, rfl⟩ | exact absurd rfl (hd _ _ _ _)

/-- What stands after the name of a property: its initial value, if it is not assigned later or elsewhere. -/
inductive Initial (z : Settings) (p : Property) : String → Prop
  | value {e : Expr} {value : String} (init : p.init = some e) (now : p.onready = false) (own : p.static = false)
      (written : CanWrite ((dialect z).expr e) value) : Initial z p (" = " ++ value)
  | none (h : p.init = none ∨ p.onready = true ∨ p.static = true) : Initial z p ""

/-- A parameter or an enumerator, shown with its value if it has one. -/
inductive Listed (z : Settings) (inits : Table Expr) (name shown : String) : String → Prop
  | plain (h : inits.find? name = none) : Listed z inits name shown shown
  | value {e : Expr} {value : String} (h : inits.find? name = some e)
      (written : CanWrite ((dialect z).expr e) value) : Listed z inits name shown (shown ++ " = " ++ value)

def classHead (c base : String) : String :=
  "class " ++ c ++ " : public " ++ base ++ " \x7b\n\tGDCLASS(" ++ c ++ ", " ++ base ++ ");\npublic:\n"

/-- The declaration of a class for some requests, up to a place that is protected or not. After a label its section goes
on up to the next one. A class that was not defined has no head. -/
inductive Declaration (z : Settings) (c : String) (base : Option String) : List Request → String → Bool → Prop
  | head : Declaration z c base [] (base.elim "" (classHead c)) false
  | label {ms : List Request} {text : String} {b : Bool} (h : Declaration z c base ms text b) (isProtected : Bool) :
      Declaration z c base ms (text ++ if isProtected then "\nprotected:\n" else "\npublic:\n") isProtected
  | gap {ms : List Request} {text gap : String} {b : Bool} (h : Declaration z c base ms text b) (hg : Gap gap) :
      Declaration z c base ms (text ++ gap) b
  | remark {ms : List Request} {text remark : String} {b : Bool} (h : Declaration z c base ms text b) {q : Request}
      (hq : remark? q = some remark) : Declaration z c base (ms ++ [q]) (text ++ remark) b
  /-- A remark in the body of a method is no part of the declaration. -/
  | inBody {ms : List Request} {text remark : String} {b : Bool} (h : Declaration z c base ms text b) {q : Request}
      (hq : remark? q = some remark) : Declaration z c base (ms ++ [q]) text b
  | property {ms : List Request} {text gap value : String} (h : Declaration z c base ms text true) (p : Property)
      (deep : Bool) (hg : Gap gap) (hv : Initial z p value) : Declaration z c base (ms ++ [.property p deep]) (text ++
        ("\t" ++ (if p.constant then "const " else if p.static then "static " else "") ++ typeName z (some p.type) ++
          " " ++ p.name ++ gap ++ value ++ ";")) true
  /-- `parsed` tells whether the method stands in the script. -/
  | method {ms : List Request} {text : String} (h : Declaration z c base ms text false) (m : Method) {parsed : Bool}
      (hm : parsed = false → Generated m) {params : List String}
      (hp : List.Forall₂ (fun p => Listed z m.inits p.1 (typedName z p)) m.params.entries params) :
      Declaration z c base (ms ++ if parsed then [.method m] else []) (text ++
        ("\t" ++ (if m.static then "static " else "") ++ typeName z m.returns ++ " " ++ m.name ++ "(" ++
          String.intercalate ", " params ++ ")" ++ (if m.override then " override" else "") ++ ";\n")) false
  | enumeration {ms : List Request} {text : String} (h : Declaration z c base ms text false) (name : String)
      (values : Params) (inits : Table Expr) {list : List String}
      (hl : List.Forall₂ (fun v => Listed z inits v v) values.keys list) :
      Declaration z c base (ms ++ [.enumeration name values inits])
        (text ++ ("\tenum " ++ name ++ " \x7b" ++ String.intercalate ", " list ++ "\x7d;")) false
  | signal {ms : List Request} {text : String} {b : Bool} (h : Declaration z c base ms text b) (name : String)
      (params : Params) : Declaration z c base (ms ++ [.signal name params]) (text ++ ("\t/* signal " ++ name ++ "(" ++
        String.intercalate ", " (params.entries.map (typedName z)) ++ ") */")) b

/-- Whatever a draft declares, the other one goes on with the given requests. -/
def ClassDraft.Grew (z : Settings) (ms : List Request) (a b : ClassDraft) : Prop :=
  ∀ c base ns, Declaration z c base ns a.text a.isProtected → Declaration z c base (ns ++ ms) b.text b.isProtected

namespace ClassDraft.Grew

variable {a b c : ClassDraft} {ms ns : List Request}

theorem trans (h : Grew z ms a b) (h' : Grew z ns b c) : Grew z (ms ++ ns) a c :=
  fun n base l hl => List.append_assoc l ms ns ▸ h' n base _ (h n base l hl)

/-- A draft that goes on with no member. -/
theorem rest (h : ∀ {n base ns}, Declaration z n base ns a.text a.isProtected →
    Declaration z n base ns b.text b.isProtected) : Grew z [] a b :=
  fun _ _ ns hd => (List.append_nil ns).symm ▸ h hd

theorem toProtected (c : ClassDraft) : Grew z [] c c.toProtected ∧ c.toProtected.isProtected = true := by
  unfold ClassDraft.toProtected
  split
  · next h => exact ⟨.rest id, h⟩
  · exact ⟨.rest (.label · true), rfl⟩

theorem toPublic (c : ClassDraft) : Grew z [] c c.toPublic ∧ c.toPublic.isProtected = false := by
  unfold ClassDraft.toPublic
  split
  · exact ⟨.rest (.label · false), rfl⟩
  · next h => exact ⟨.rest id, by simpa using h⟩

end ClassDraft.Grew

/-- What stands between the classes: line ends, and remarks that were asked for. -/
inductive Margin : List Request → String → Prop
  | gap {gap : String} (h : Gap gap) : Margin [] gap
  | remark {q : Request} {remark : String} (h : remark? q = some remark) : Margin [q] remark
  | silent (q : Request) : Margin [q] ""
  | append {ms ns : List Request} {text more : String} (h : Margin ms text) (h' : Margin ns more) :
      Margin (ms ++ ns) (text ++ more)

theorem Margin.of_gap {gap : String} (h : Gap gap) (ms : List Request) : Margin ms gap := by
  induction ms with
  | nil => exact .gap h
  | cons q ms ih =>
    have margin := (Margin.silent q).append ih
    rwa [String.empty_append] at margin

/-- The declarations of a script, in the order in which the classes ended. -/
inductive Listing (z : Settings) : List Request → String → Prop
  | nil : Listing z [] ""
  | request {q : Request} {qs : List Request} {text margin : String} (h : Listing z qs text) (hq : q.ends = false)
      (hm : Margin ([q].filter (·.declares)) margin) : Listing z (q :: qs) (text ++ margin)
  | ending {q : Request} {qs : List Request} {text before declared after : String} {b : Bool} (h : Listing z qs text)
      (hq : q.ends = true) (hb : Margin [] before) (hd : Declaration z (enteredLast qs) (baseOf (enteredLast qs) qs)
        (membersOf (enteredLast qs) qs) declared b) (enums : Table Ty) (ha : Margin [] after) :
      Listing z (q :: qs) (text ++ before ++ declared ++ "\x7d;\n\n" ++ enumCasts z (enteredLast qs) enums ++ after)

/-! ## What becomes of classes -/

/-- The current class goes on with some requests, and no other class changes. -/
structure Enlarges (z : Settings) (ms : List Request) (o o' : State) : Prop where
  className : o'.className = o.className
  others : ∀ c, o.className ≠ c → o'.draftOf c = o.draftOf c
  name : o'.draft.name = o.draft.name
  own : ClassDraft.Grew z ms o.draft o'.draft
  declarations : ∃ margin, Margin ms margin ∧ o'.declarations = o.declarations ++ margin

theorem Enlarges.trans {a b c : State} {l m : List Request} (h : Enlarges z l a b) (h' : Enlarges z m b c) :
    Enlarges z (l ++ m) a c where
  className := h'.className.trans h.className
  others n hn := (h'.others n (h.className ▸ hn)).trans (h.others n hn)
  name := h'.name.trans h.name
  own := h.own.trans h'.own
  declarations := by
    obtain ⟨t, margin, ht⟩ := h.declarations
    obtain ⟨t', margin', ht'⟩ := h'.declarations
    exact ⟨t ++ t', margin.append margin', by rw [ht', ht, String.append_assoc]⟩

theorem State.draft_redraft (o : State) (f : ClassDraft → ClassDraft) : (o.redraft f).draft = f o.draft :=
  (draftOf_redraft ..).trans (if_pos rfl)

/-- Text is added to the current class, and no other class changes. -/
structure AddsText (text : String) (o o' : State) : Prop where
  className : o'.className = o.className
  others : ∀ c, o.className ≠ c → o'.draftOf c = o.draftOf c
  name : o'.draft.name = o.draft.name
  isProtected : o'.draft.isProtected = o.draft.isProtected
  text : o'.draft.text = o.draft.text ++ text
  declarations : ∃ gap, Gap gap ∧ o'.declarations = o.declarations ++ gap

namespace AddsText

variable {a b : String} {o' o'' : State}

theorem refl (o : State) : AddsText "" o o :=
  ⟨rfl, fun _ _ => rfl, rfl, rfl, String.append_empty.symm, "", .empty, String.append_empty.symm⟩

theorem trans (h : AddsText a o o') (h' : AddsText b o' o'') : AddsText (a ++ b) o o'' where
  className := h'.className.trans h.className
  others n hn := (h'.others n (h.className ▸ hn)).trans (h.others n hn)
  name := h'.name.trans h.name
  isProtected := h'.isProtected.trans h.isProtected
  text := by rw [h'.text, h.text, String.append_assoc]
  declarations := by
    obtain ⟨t, gap, ht⟩ := h.declarations
    obtain ⟨t', gap', ht'⟩ := h'.declarations
    exact ⟨t ++ t', gap.append gap', by rw [ht', ht, String.append_assoc]⟩

theorem redraft (o : State) {f : ClassDraft → ClassDraft} (name : (f o.draft).name = o.draft.name)
    (isProtected : (f o.draft).isProtected = o.draft.isProtected) (text : (f o.draft).text = o.draft.text ++ a) :
    AddsText a o (o.redraft f) where
  className := rfl
  others c hc := (State.draftOf_redraft ..).trans (if_neg hc)
  name := by rwa [State.draft_redraft]
  isProtected := by rwa [State.draft_redraft]
  text := by rwa [State.draft_redraft]
  declarations := ⟨"", .empty, String.append_empty.symm⟩

theorem enlarges {ms : List Request} (h : AddsText a o o') (grows : ∀ c base ns, Declaration z c base ns o.draft.text
    o.draft.isProtected → Declaration z c base (ns ++ ms) (o.draft.text ++ a) o.draft.isProtected) :
    Enlarges z ms o o' where
  className := h.className
  others := h.others
  name := h.name
  own c base ns hd := by
    rw [h.text, h.isProtected]
    exact grows c base ns hd
  declarations := by
    obtain ⟨gap, hg, text⟩ := h.declarations
    exact ⟨gap, .of_gap hg ms, text⟩

end AddsText

/-- Nothing but line ends is added to the current class. -/
def Loosely (o o' : State) : Prop := ∃ gap, Gap gap ∧ AddsText gap o o'

variable {o' : State}

theorem Loosely.same (hn : o'.className = o.className) (hd : o'.drafts = o.drafts)
    (declarations : ∃ gap, Gap gap ∧ o'.declarations = o.declarations ++ gap) : Loosely o o' := by
  have drafts (c : String) : o'.draftOf c = o.draftOf c := by rw [State.draftOf, hd]; rfl
  have own : o'.draft = o.draft := (drafts _).trans (by rw [hn]; rfl)
  exact ⟨"", .empty, hn, fun c _ => drafts c, congrArg _ own, congrArg _ own, by rw [own, String.append_empty],
    declarations⟩

theorem Loosely.refl (o : State) : Loosely o o := ⟨"", .empty, .refl o⟩

theorem Loosely.trans {a b c : State} (h : Loosely a b) (h' : Loosely b c) : Loosely a c := by
  obtain ⟨gap, hg, adds⟩ := h
  obtain ⟨gap', hg', adds'⟩ := h'
  exact ⟨gap ++ gap', hg.append hg', adds.trans adds'⟩

theorem Loosely.enlarges (h : Loosely o o') : Enlarges z [] o o' := by
  obtain ⟨gap, hg, adds⟩ := h
  exact adds.enlarges fun _ _ ns hd => (List.append_nil ns).symm ▸ hd.gap hg

instance : Tolerant Loosely where
  lines level text h o := by
    have gap : Gap (Page.indented level text) := by
      refine forall_indented (.inl rfl) (.inr rfl) (fun c hc => .inl ?_) level
      simpa using List.all_eq_true.mp h c hc
    split
    · exact .same rfl rfl ⟨_, gap, rfl⟩
    · exact ⟨_, gap, .redraft o rfl rfl rfl⟩
  use _ _ := .same rfl rfl ⟨"", .empty, String.append_empty.symm⟩

/-- The manner of actions that write line ends only. -/
def loosely : PageManner State Loosely := .ofPages
    (.ending (fun d d' => Loosely d.pages.own d'.pages.own) (fun _ => .refl _) .trans)
    .refl (fun _ _ h => h) fun _ _ => .refl _

/-- The manner of actions that declare nothing of what stands in the script. -/
def supplying (z : Settings) : PageManner State Loosely := .ofPages
    (.ending (fun d d' => Enlarges z [] d.pages.own d'.pages.own) (fun _ => (Loosely.refl _).enlarges) .trans)
    .refl (fun _ _ h => h.enlarges) fun _ _ => (Loosely.refl _).enlarges

theorem supplying_turns : (supplying z).Turns := fun _ _ h => h.enlarges

variable {f : ClassDraft → ClassDraft} {ms : List Request}

theorem Enlarges.redraft (name : (f o.draft).name = o.draft.name) (own : ClassDraft.Grew z ms o.draft (f o.draft)) :
    Enlarges z ms o (o.redraft f) where
  className := rfl
  others c hc := (State.draftOf_redraft ..).trans (if_neg hc)
  name := by rwa [State.draft_redraft]
  own := by rwa [State.draft_redraft]
  declarations := ⟨"", .of_gap .empty ms, String.append_empty.symm⟩

theorem redraft_supplies (h : ∀ c : ClassDraft, (f c).name = c.name ∧ ClassDraft.Grew z [] c (f c)) :
    (supplying z).Allows (redraft f) := fun _ => .redraft (h _).1 (h _).2

theorem ClassDraft.name_toPublic (c : ClassDraft) : c.toPublic.name = c.name := by
  unfold toPublic
  split <;> rfl

theorem ClassDraft.name_toProtected (c : ClassDraft) : c.toProtected.name = c.name := by
  unfold toProtected
  split <;> rfl

/-! ## Members -/

section members

variable {d d' : Desk (Pages State)} {u : Unit} {text : String}

/-- What holds of each item of a list and its result. -/
theorem forall₂_of_mapM {S α β : Type} {g : α → EStateM Fault S β} {P : α → β → Prop}
    (h : ∀ a s b s', g a s = .ok b s' → P a b) (as : List α) :
    ∀ {s s' : S} {bs : List β}, as.mapM g s = .ok bs s' → List.Forall₂ P as bs := by
  induction as with
  | nil =>
    intro s s' bs hm
    cases hm
    exact .nil
  | cons a as ih =>
    intro s s' bs hm
    rw [List.mapM_cons] at hm
    obtain ⟨b, s1, h1, hm⟩ := Read.bind_eq_ok hm
    obtain ⟨bs', s2, h2, hm⟩ := Read.bind_eq_ok hm
    cases hm
    exact .cons (h a _ b _ h1) (ih h2)

theorem canWrite_of_onPage {act : PlusM Unit} (h : Page.onPage act d = .ok text d') : CanWrite act text := by
  obtain ⟨d0, d1, acted, start, rfl, -⟩ := Page.onPage_eq_ok h
  exact ⟨d0, d1, acted, by rw [start, String.empty_append]⟩

theorem typeText_eq {type : Ty} (h : typeText z type d = .ok text d') : text = typeName z type := by
  cases h
  rfl

theorem declaredParam_listed {inits : Table Expr} {p : String × Ty} (h : declaredParam z inits p d = .ok text d') :
    Listed z inits p.1 (typedName z p) text := by
  obtain ⟨shown, d1, h1, h⟩ := Read.bind_eq_ok h
  obtain rfl : shown = typedName z p := by
    cases h1
    rfl
  cases hp : inits.find? p.1 with
  | none =>
    rw [hp] at h
    cases h
    exact .plain hp
  | some e =>
    rw [hp] at h
    obtain ⟨value, d2, h2, h⟩ := Read.bind_eq_ok h
    cases h
    exact .value hp (canWrite_of_onPage h2)

theorem declaredParams_listed {inits : Table Expr} {ps : List (String × Ty)} {list : List String}
    (h : ps.mapM (declaredParam z inits) d = .ok list d') :
    List.Forall₂ (fun p => Listed z inits p.1 (typedName z p)) ps list := by
  refine forall₂_of_mapM (P := fun p => Listed z inits p.1 (typedName z p)) ?_ ps h
  intro p d text d' hp
  exact declaredParam_listed hp

theorem enumerators_listed {inits : Table Expr} :
    ∀ (names : List String) {d d' : Desk (Pages State)} {list : List String},
    (dialect z).enumerators inits names d = .ok list d' → List.Forall₂ (fun v => Listed z inits v v) names list
  | [], d, d', list, h => by
    cases h
    exact .nil
  | v :: names, d, d', list, h => by
    unfold Dialect.enumerators at h
    cases hv : inits.find? v with
    | none =>
      rw [hv] at h
      obtain ⟨_, _, shown, h⟩ := Read.bind_eq_ok h
      cases shown
      obtain ⟨list', d1, h1, h⟩ := Read.bind_eq_ok h
      cases h
      exact .cons (.plain hv) (enumerators_listed names h1)
    | some e =>
      rw [hv] at h
      obtain ⟨value, d1, h1, h⟩ := Read.bind_eq_ok h
      obtain ⟨_, _, shown, h⟩ := Read.bind_eq_ok h
      cases shown
      obtain ⟨list', d2, h2, h⟩ := Read.bind_eq_ok h
      cases h
      exact .cons (.value hv (canWrite_of_onPage h1)) (enumerators_listed names h2)

theorem Enlarges.of_redraft (h : CPlusPlus.redraft f d = .ok u d') (name : ∀ c : ClassDraft, (f c).name = c.name)
    (hf : ∀ c : ClassDraft, ClassDraft.Grew z ms c (f c)) : Enlarges z ms d.pages.own d'.pages.own := by
  cases h
  exact .redraft (name _) (hf _)

theorem AddsText.of_add (h : CPlusPlus.redraft (·.add text) d = .ok u d') : AddsText text d.pages.own d'.pages.own := by
  cases h
  exact .redraft _ (f := (·.add text)) rfl rfl rfl

/-- A piece is declared in the section that it belongs to, which is begun for it if need be. -/
theorem declare_enlarges {s : Bool} {g : ClassDraft → ClassDraft} {d1 : Desk (Pages State)} {v : Unit}
    (begins : redraft g d = .ok v d1) (name : ∀ c, (g c).name = c.name)
    (hg : ∀ c, ClassDraft.Grew z [] c (g c) ∧ (g c).isProtected = s) (adds : AddsText text d1.pages.own d'.pages.own)
    (h : ∀ {n base ns t}, Declaration z n base ns t s → Declaration z n base (ns ++ ms) (t ++ text) s) :
    Enlarges z ms d.pages.own d'.pages.own := by
  have begun : Enlarges z [] _ d1.pages.own := .of_redraft begins name fun c => (hg c).1
  have here : d1.pages.own.draft.isProtected = s := by
    cases begins
    exact (congrArg _ (State.draft_redraft ..)).trans (hg _).2
  exact begun.trans (adds.enlarges fun _ _ _ hd => here ▸ h (here ▸ hd))

/-- **A method is declared in the public section.** -/
theorem method_enlarges {m : Method} (parsed : Bool) (hg : parsed = false → Generated m)
    (h : method z m d = .ok u d') : Enlarges z (if parsed then [.method m] else []) d.pages.own d'.pages.own := by
  rw [method_eq] at h
  obtain ⟨_, d1, h1, h⟩ := Read.bind_eq_ok h
  obtain ⟨code, d2, h2, h⟩ := Read.bind_eq_ok h
  obtain ⟨_, d3, h3, h⟩ := Read.bind_eq_ok h
  obtain ⟨returns, d4, h4, h⟩ := Read.bind_eq_ok h
  obtain ⟨params, d5, h5, h⟩ := Read.bind_eq_ok h
  obtain ⟨_, d6, h6, h7⟩ := Read.bind_eq_ok h
  have known : Enlarges z [] d.pages.own d1.pages.own := by
    obtain ⟨_, d0, h0, h1⟩ := Read.bind_eq_ok h1
    have noted : Enlarges z [] _ d0.pages.own := .of_redraft h0 (fun _ => rfl) fun _ => .rest id
    cases h1
    exact noted
  have coded : Enlarges z [] _ d2.pages.own :=
    (Manner.Allows.ite ((supplying z).onPage (put_allowed _ _)) (.pure _)).ok h2
  obtain rfl := typeText_eq h4
  have typed : Loosely _ d4.pages.own := (typeText_allowed loosely z _).ok h4
  have listed : Loosely _ d5.pages.own := (Manner.Allows.mapM (declaredParam_allowed loosely z _) _).ok h5
  have params : List.Forall₂ (fun p => Listed z m.inits p.1 (typedName z p)) m.params.entries params :=
    declaredParams_listed h5
  -- line ends in default values stand before the method
  obtain ⟨gap, hgap, adds⟩ := typed.trans listed
  have declared : Enlarges z (if parsed then [.method m] else []) d2.pages.own d6.pages.own := by
    refine declare_enlarges h3 ClassDraft.name_toPublic ClassDraft.Grew.toPublic (adds.trans (.of_add h6)) fun hd => ?_
    rw [← String.append_assoc]
    exact (hd.gap hgap).method m hg params
  have rest : Enlarges z [] d6.pages.own d'.pages.own := by
    refine Manner.Allows.ok (M := (supplying z).toManner) ?_ h7
    refine (typeText_allowed _ z _).bind fun _ => (Manner.Allows.mapM (paramText_allowed _ z) _).bind fun _ =>
      (supplying z).own.bind fun _ => (put_allowed _ _).bind fun _ => (draft_allowed _).bind fun _ => ?_
    refine .ite (.bind (redraft_supplies fun _ => ⟨rfl, ?_⟩) fun _ => (supplying z).level.bind fun _ =>
      (supplying z).write _)
      ((supplying z).write _)
    exact .rest id
  have all := known.trans (coded.trans (declared.trans rest))
  rwa [List.append_nil] at all

theorem loosely_assignment (e : Expr) : loosely.Allows (Page.onPage ((dialect z).assignment e)) :=
  loosely.onPage ((dialect_allowed loosely z).assignment e)

theorem initialValue_adds {p : Property} (h : initialValue z p d = .ok u d') :
    ∃ gap value, Gap gap ∧ Initial z p value ∧ AddsText (gap ++ value) d.pages.own d'.pages.own := by
  have H := dialect_allowed loosely z
  -- an assignment that is put down for later leaves line ends at most
  have later {act : PlusM Unit} {g : String → ClassDraft → ClassDraft} (allowed : loosely.Allows act)
      (hg : ∀ text c, (g text c).name = c.name ∧ (g text c).isProtected = c.isProtected ∧ (g text c).text = c.text)
      (none : p.init = none ∨ p.onready = true ∨ p.static = true)
      (h : (do let text ← Page.onPage act; redraft (g text)) d = .ok u d') :
      ∃ gap value, Gap gap ∧ Initial z p value ∧ AddsText (gap ++ value) d.pages.own d'.pages.own := by
    obtain ⟨text, d1, h1, h2⟩ := Read.bind_eq_ok h
    obtain ⟨gap, hgap, adds⟩ := (loosely.onPage allowed).ok h1
    refine ⟨gap, "", hgap, .none none, adds.trans ?_⟩
    cases h2
    obtain ⟨name, isProtected, same⟩ := hg text d1.pages.own.draft
    exact .redraft _ (f := g text) name isProtected (by rw [same, String.append_empty])
  unfold initialValue at h
  cases init : p.init with
  | none =>
    rw [init] at h
    cases h
    exact ⟨"", "", .empty, .none (.inl init), .refl _⟩
  | some e =>
    rw [init] at h
    dsimp only at h
    split at h
    · next onready =>
      exact later (g := fun text c => { c with onready := c.onready ++ [text] }) (putThen_allowed _ (H.assignment e))
        (fun _ _ => ⟨rfl, rfl, rfl⟩) (.inr (.inl onready)) h
    · next onready =>
      split at h
      · next static =>
        obtain ⟨own, _, looked, h⟩ := Read.bind_eq_ok h
        cases looked
        exact later (g := fun text c => { c with statics := c.statics ++ [text] }) (putThen_allowed _ (H.assignment e))
          (fun _ _ => ⟨rfl, rfl, rfl⟩) (.inr (.inr static)) h
      · next static =>
        obtain ⟨text, d1, h1, h2⟩ := Read.bind_eq_ok h
        obtain ⟨gap, hgap, adds⟩ := (loosely_assignment e).ok h1
        obtain ⟨value, written, rfl⟩ := onPage_assignment h1
        exact ⟨gap, _, hgap, .value init (by simpa using onready) (by simpa using static) written,
          adds.trans (.of_add h2)⟩

/-- **A property is declared in the protected section**, in one piece with its initial value. -/
theorem property_enlarges {p : Property} (deep : Bool) (h : property z p d = .ok u d') :
    Enlarges z [.property p deep] d.pages.own d'.pages.own := by
  rw [property_eq] at h
  obtain ⟨_, d1, h1, h⟩ := Read.bind_eq_ok h
  obtain ⟨type, d2, h2, h⟩ := Read.bind_eq_ok h
  obtain ⟨_, d3, h3, h⟩ := Read.bind_eq_ok h
  obtain ⟨_, d4, h4, h5⟩ := Read.bind_eq_ok h
  obtain rfl := typeText_eq h2
  obtain ⟨before, hbefore, typed⟩ := (typeText_allowed loosely z _).ok h2
  obtain ⟨gap, value, hgap, initial, valued⟩ := initialValue_adds h4
  refine declare_enlarges h1 ClassDraft.name_toProtected ClassDraft.Grew.toProtected
    (typed.trans ((AddsText.of_add h3).trans (valued.trans (.of_add h5)))) fun hd => ?_
  have declared := (hd.gap hbefore).property p deep hgap initial
  simp only [String.append_assoc] at declared ⊢
  exact declared

theorem supplying_registers : Registers (supplying z) z where
  note f h := redraft_supplies fun c => ⟨(h c).1, .rest (by rw [(h c).2.1, (h c).2.2.1]; exact id)⟩
  label := redraft_supplies fun c => ⟨c.name_toPublic, (ClassDraft.Grew.toPublic c).1.trans <|
    .rest (.gap · (by decide))⟩
  method m hm d := by
    cases hd : method z m d with
    | ok => exact method_enlarges false (fun _ => hm) hd
    | error => trivial
  memberType := memberType_allowed fun _ _ => trivial
  bind := withBindings_allowed fun _ _ => trivial

/-- **A remark** stands in the declaration, before all declarations, or in the body of a method. -/
theorem remark_enlarges (hq : remark? q = some text) (h : comment text d = .ok u d') :
    Enlarges z [q] d.pages.own d'.pages.own := by
  obtain ⟨level, _, looked, h⟩ := Read.bind_eq_ok h
  cases looked
  split at h
  · obtain ⟨gap, hgap, adds⟩ := (put_allowed loosely text).ok h
    exact adds.enlarges fun _ _ _ hd => (hd.gap hgap).inBody hq
  · cases h
    show Enlarges z [q] d.pages.own (if d.pages.own.drafts.isEmpty then _ else _)
    split
    · exact ⟨rfl, fun _ _ => rfl, rfl, fun _ _ _ hd => hd.inBody hq, text, .remark hq, rfl⟩
    · exact .redraft rfl fun _ _ _ hd => hd.remark hq

/-- **Every request adds what it declares** to the current class. -/
theorem serve_enlarges (he : ∀ name, q ≠ .enterClass name) (hd : q.DefinesNone) (hn : q.ends = false)
    (h : serve z q d = .ok u d') : Enlarges z ([q].filter (·.declares)) d.pages.own d'.pages.own := by
  have R := supplying_registers (z := z)
  cases q with
  | enterClass name => exact absurd rfl (he name)
  | defineClass name base isTool isMain => exact absurd rfl (hd name base isTool isMain)
  | endClass | endScript => cases hn
  | property p deep => exact property_enlarges deep h
  | method m => exact method_enlarges true nofun h
  | comment | longComment => exact remark_enlarges rfl h
  | enumeration name values inits =>
    obtain ⟨texts, d1, h1, h⟩ := Read.bind_eq_ok h
    have written : Loosely _ d1.pages.own := (Dialect.enumerators_allowed (dialect_allowed loosely z) inits _).ok h1
    have list := enumerators_listed _ h1
    refine written.enlarges.trans (.of_redraft h (fun c => c.name_toPublic) fun c => ?_)
    obtain ⟨grew, isPublic⟩ := ClassDraft.Grew.toPublic (z := z) c
    refine grew.trans fun _ _ _ hd => ?_
    rw [isPublic] at hd
    exact isPublic ▸ hd.enumeration name values inits list
  | signal name params =>
    obtain ⟨_, d1, h1, h⟩ := Read.bind_eq_ok h
    obtain ⟨texts, d2, h2, h⟩ := Read.bind_eq_ok h
    have noted : Enlarges z [] _ d1.pages.own := .of_redraft h1 (fun _ => rfl) fun _ => .rest id
    have listed : Loosely _ d2.pages.own := (Manner.Allows.mapM (paramText_allowed loosely z) _).ok h2
    obtain rfl : texts = params.entries.map (typedName z) := by
      have named := paramTexts_still (z := z) params.entries d1
      unfold Runs Yields at named
      rw [h2] at named
      exact named.1
    exact noted.trans <| listed.enlarges.trans <| .of_redraft h (fun _ => rfl) fun _ _ _ _ hd => hd.signal name params
  | marker => exact (R.noted _).ok h
  | accessor p a => exact (accessor_allowed R p a).ok h
  | endProperty p accessors => exact (endProperty_allowed R p accessors).ok h
  | _ =>
    exact (serve_inBlock_allowed (supplying z) z _ rfl (fun _ h => by cases h) (fun _ => supplying_turns)
      fun _ => trivial).ok h

/-- A class has ended: its declaration stands after those of the classes that ended before. -/
def Ended (z : Settings) (o o' : State) : Prop :=
  ∃ o1 enums, Enlarges z [] o o1 ∧ Enlarges z [] { o1 with
    declarations := o1.declarations ++ o1.draft.text ++ "\x7d;\n\n" ++ enumCasts z o1.draft.name enums } o'

theorem endClass_ends (h : endClass z d = .ok u d') : Ended z d.pages.own d'.pages.own := by
  obtain ⟨_, d1, h1, h⟩ := Read.bind_eq_ok h
  have finished : Enlarges z [] d.pages.own d1.pages.own := (addLastMethods_allowed supplying_registers).ok h1
  cases h
  refine ⟨d1.pages.own, _, finished, Loosely.enlarges (.same rfl rfl ⟨"", .empty, String.append_empty.symm⟩)⟩

theorem serve_ends (hn : q.ends = true) (h : serve z q d = .ok u d') : Ended z d.pages.own d'.pages.own := by
  cases q with
  | endClass => exact endClass_ends h
  | endScript =>
    obtain ⟨_, d1, h1, h⟩ := Read.bind_eq_ok h
    obtain ⟨o1, enums, finished, closed⟩ := endClass_ends h1
    refine ⟨o1, enums, finished, closed.trans (m := []) (Manner.Allows.ok (M := (supplying z).toManner) ?_ h)⟩
    refine supplying_turns.flush.bind fun _ => (supplying z).level.bind fun _ =>
      (closeScopes_allowed _ trivial _).bind fun _ => Manner.Allows.get.bind fun _ =>
      (supplying z).modifyOwn _ fun o => ?_
    exact .same rfl rfl ⟨"", .empty, String.append_empty.symm⟩
  | _ => cases hn

end members

/-! ## Runs -/

/-- The classes of a script are declared with what was asked for in them. -/
structure Declared (z : Settings) (qs : List Request) (o : State) : Prop where
  className : o.className = enteredLast qs
  names : ∀ c, (o.draftOf c).name = c
  declaration : ∀ c, Declaration z c (baseOf c qs) (membersOf c qs) (o.draftOf c).text (o.draftOf c).isProtected

/-- The classes of a script are declared, and those that ended are listed. -/
structure Declares (z : Settings) (qs : List Request) (o : State) : Prop extends Declared z qs o where
  listing : Listing z qs o.declarations

theorem Declared.grow {l : List Request} (h : Declared z qs o) (more : Enlarges z ms o o')
    (entered : enteredLast l = enteredLast qs) (asked : ∀ c, baseOf c l = baseOf c qs ∧
      membersOf c l = membersOf c qs ++ if enteredLast qs = c then ms else []) : Declared z l o' := by
  have same : o'.draftOf (enteredLast qs) = o'.draft ∧ o.draftOf (enteredLast qs) = o.draft := by
    rw [State.draft, State.draft, more.className, h.className]
    exact ⟨rfl, rfl⟩
  refine ⟨by rw [entered, more.className, h.className], fun c => ?_, fun c => ?_⟩
  · by_cases hc : enteredLast qs = c
    · rw [← hc, same.1, more.name, ← same.2]
      exact h.names _
    · rw [more.others c (h.className ▸ hc)]
      exact h.names c
  · obtain ⟨base, members⟩ := asked c
    rw [base, members]
    by_cases hc : enteredLast qs = c
    · rw [if_pos hc, ← hc, same.1]
      exact more.own _ _ _ (same.2 ▸ h.declaration _)
    · rw [if_neg hc, List.append_nil, more.others c (h.className ▸ hc)]
      exact h.declaration c

theorem Declared.request (h : Declared z qs o) (he : ∀ name, q ≠ .enterClass name) (hd : q.DefinesNone)
    (more : Enlarges z ([q].filter (·.declares)) o o') : Declared z (q :: qs) o' :=
  h.grow more (enteredLast_cons he qs) fun c => membersOf_cons c hd qs

theorem Declares.request (h : Declares z qs o) (he : ∀ name, q ≠ .enterClass name) (hd : q.DefinesNone)
    (hn : q.ends = false) (more : Enlarges z ([q].filter (·.declares)) o o') : Declares z (q :: qs) o' where
  toDeclared := h.toDeclared.request he hd more
  listing := by
    obtain ⟨margin, hm, text⟩ := more.declarations
    rw [text]
    exact h.listing.request hn hm

/-- **A class is listed when it ends.** -/
theorem Declares.ending (h : Declares z qs o) (hn : q.ends = true) (ended : Ended z o o') :
    Declares z (q :: qs) o' := by
  have none : [q].filter (·.declares) = [] := by cases q <;> first | rfl | cases hn
  have he (name : String) : q ≠ .enterClass name := by rintro rfl; cases hn
  have hd : q.DefinesNone := by rintro _ _ _ _ rfl; cases hn
  obtain ⟨o1, enums, finished, closed⟩ := ended
  have last : Declared z (q :: qs) o1 := h.toDeclared.request he hd (by rw [none]; exact finished)
  have declared (text : String) : Declared z (q :: qs) { o1 with declarations := text } :=
    ⟨last.className, last.names, last.declaration⟩
  refine ⟨(declared _).grow closed rfl fun c => ⟨rfl, ?_⟩, ?_⟩
  · rw [ite_self, List.append_nil]
  · obtain ⟨before, hbefore, text⟩ := finished.declarations
    obtain ⟨after, hafter, text'⟩ := closed.declarations
    have entered : enteredLast (q :: qs) = enteredLast qs := enteredLast_cons he qs
    have current : o1.draft = o1.draftOf (enteredLast qs) := by
      rw [State.draft, last.className, entered]
      rfl
    have declared := last.declaration (enteredLast qs)
    obtain ⟨base, members⟩ := membersOf_cons (enteredLast qs) hd qs
    rw [base, members, none, ite_self, List.append_nil, ← current] at declared
    rw [text']
    dsimp only
    rw [current, last.names, ← current, text]
    exact h.listing.ending hn hbefore declared enums hafter

theorem Declares.enter (h : Declares z qs o) (name : String) :
    Declares z (.enterClass name :: qs) { o with className := name } where
  className := rfl
  names := h.names
  declaration c := by
    obtain ⟨base, members⟩ := membersOf_cons c (q := .enterClass name) nofun qs
    have none : (if enteredLast qs = c then [Request.enterClass name].filter (·.declares) else []) = [] := ite_self _
    rw [base, members, none, List.append_nil]
    exact h.declaration c
  listing := by
    have listing := h.listing.request (q := .enterClass name) rfl (.gap .empty)
    rwa [String.append_empty] at listing

theorem Declares.define (h : Declares z qs o) {name base : String} (isTool isMain : Bool)
    (hn : o'.className = o.className) (hd : o'.declarations = o.declarations)
    (ho : ∀ c, o'.draftOf c = if name = c then { name := c, text := classHead name base } else o.draftOf c) :
    Declares z (.defineClass name base isTool isMain :: qs) o' where
  className := hn.trans h.className
  names c := by
    rw [ho]
    split
    · rfl
    · exact h.names c
  declaration c := by
    unfold baseOf membersOf
    rw [ho]
    by_cases hc : name = c
    · rw [if_pos hc, if_pos hc, if_pos hc, hc]
      exact .head
    · rw [if_neg hc, if_neg hc, if_neg hc]
      exact h.declaration c
  listing := by
    have listing := h.listing.request (q := .defineClass name base isTool isMain) rfl (.gap .empty)
    rwa [String.append_empty, ← hd] at listing

/-- **Declarations in a session.** -/
theorem declares_of_session {name : String} {d0 d : Desk (Pages State)} (h : Session (writer z) d0 qs d)
    (h0 : d0.pages = start name) : Declares z qs d.pages.own := by
  induction h with
  | start =>
    rw [h0]
    exact ⟨⟨rfl, fun _ => rfl, fun c => .head⟩, .nil⟩
  | read _ hp ih => exact hp ▸ ih
  | takePage _ taken ih => cases taken; exact ih
  | @serve q qs d d' _ hd served ih =>
    by_cases he : ∃ name, q = .enterClass name
    · obtain ⟨name, rfl⟩ := he
      cases served
      exact ih.enter name
    · have he (name : String) : q ≠ .enterClass name := fun h => he ⟨name, h⟩
      cases hn : q.ends with
      | true => exact ih.ending hn (serve_ends hn served)
      | false => exact ih.request he hd hn (serve_enlarges he hd hn served)
  | @opens name base isTool isMain qs d _ _ _ enters defines ih =>
    cases enters
    cases defines
    exact (ih.enter name).define isTool isMain rfl rfl
      (State.draftOf_define { d.pages.own.use [base] with className := name } (classHead name base))

/-- **Members stand in their sections.** In a run that ends well, every class that is defined is declared with what was
asked for in it, and with nothing else but added methods. The last label before a property is `protected:`, and before a
method or an enumeration it is `public:`, whatever stands between them and in other classes. -/
theorem run_keeps_sections {name text : String} {d : Desk (Pages State)} (hd : d.pages = start name)
    (ok : (run (writer z) name text d).fault = none) {c base : String}
    (hc : baseOf c (run (writer z) name text d).asked = some base) :
    Declaration z c (some base) (membersOf c (run (writer z) name text d).asked)
      ((run (writer z) name text d).desk.pages.own.draftOf c).text
      ((run (writer z) name text d).desk.pages.own.draftOf c).isProtected :=
  hc ▸ (declares_of_session (run_session ok) hd).declaration c

/-- A script with all kinds of members, in two classes. -/
def mixedScript : String :=
  "extends Node\nvar a = 1\nenum E \x7bP = 2\x7d\nvar b = 2\nclass I:\n\tfunc f(x = 1):\n\t\tpass\n\tvar c = 3\n" ++
    "var d = 4\n# public:\nsignal s\nfunc g():\n\tpass\n"

theorem mixedScript_runs : (run (writer {}) "S" mixedScript ⟨{}, #[], start "S"⟩).fault = none ∧
    baseOf "S" (run (writer {}) "S" mixedScript ⟨{}, #[], start "S"⟩).asked = some "Node" ∧
    (membersOf "S" (run (writer {}) "S" mixedScript ⟨{}, #[], start "S"⟩).asked).length = 7 := by
  decide +kernel

theorem run_keeps_sections_mixed : ∃ ms b, ms.length = 7 ∧ Declaration {} "S" (some "Node") ms
    ((run (writer {}) "S" mixedScript ⟨{}, #[], start "S"⟩).desk.pages.own.draftOf "S").text b :=
  ⟨_, _, mixedScript_runs.2.2, run_keeps_sections rfl mixedScript_runs.1 mixedScript_runs.2.1⟩

end CPlusPlus

end GdScribe
