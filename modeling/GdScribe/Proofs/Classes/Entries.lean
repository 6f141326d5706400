import GdScribe.Proofs.Reader.Bodies
import GdScribe.Proofs.Target.Spelling

/-!
# What C++ writes for the members of classes

Each property, method, annotation and signal is an entry. What the target knows after some actions is told by the
entries that they made.

* `Yields`, `Runs`: what an action does from one state, and at a desk where it may only fail plainly: never for want of
  an entry.

Principal results: `method_runs`, `property_runs` and `endClass_runs`.
-/

namespace GdScribe

open List

/-- Line ends and tabs. -/
def Gap (text : String) : Prop := ∀ c ∈ text.toList, c = '\n' ∨ c = '\t'

instance (text : String) : Decidable (Gap text) := inferInstanceAs (Decidable (∀ c ∈ text.toList, _))

theorem Gap.empty : Gap "" := nofun

theorem Gap.append {a b : String} (ha : Gap a) (hb : Gap b) : Gap (a ++ b) := by
  intro c hc
  rw [String.toList_append] at hc
  exact (mem_append.mp hc).elim (ha c) (hb c)

/-- What may stand between entries: line ends, tabs, and braces that close scopes. -/
def Spacing (text : String) : Prop := ∀ c ∈ text.toList, c = '\n' ∨ c = '\t' ∨ c = '\x7d'

instance (text : String) : Decidable (Spacing text) := inferInstanceAs (Decidable (∀ c ∈ text.toList, _))

theorem Spacing.append {a b : String} (ha : Spacing a) (hb : Spacing b) : Spacing (a ++ b) := by
  intro c hc
  rw [String.toList_append] at hc
  exact (mem_append.mp hc).elim (ha c) (hb c)

theorem Spacing.empty : Spacing "" := nofun

/-- Texts that make up a text, one after the other, with nothing but spacing between them. -/
inductive Woven : List String → String → Prop
  | nil {gap : String} (h : Spacing gap) : Woven [] gap
  | cons {gap x rest : String} {xs : List String} (hg : Spacing gap) (h : Woven xs rest) :
      Woven (x :: xs) (gap ++ x ++ rest)

namespace Woven

variable {xs ys : List String} {a b x : String}

theorem after (ha : Spacing a) (h : Woven xs b) : Woven xs (a ++ b) := by
  cases h with
  | nil h => exact .nil (ha.append h)
  | cons hg h =>
    rw [← String.append_assoc, ← String.append_assoc]
    exact .cons (ha.append hg) h

theorem append (h : Woven xs a) (h' : Woven ys b) : Woven (xs ++ ys) (a ++ b) := by
  induction h with
  | nil ha => exact h'.after ha
  | cons hg _ ih =>
    rw [String.append_assoc]
    exact .cons hg ih

theorem one (ha : Spacing a) : Woven [x] (a ++ x) := by
  have woven : Woven [x] (a ++ x ++ "") := .cons ha (.nil .empty)
  rwa [String.append_empty] at woven

end Woven

/-! ## Actions from one state -/

/-- From a state, an action does what `Q` tells, or fails as `E` tells. -/
def Yields {S α : Type} (E : Fault → S → Prop) (x : EStateM Fault S α) (s : S) (Q : α → S → Prop) : Prop :=
  match x s with
  | .ok a s' => Q a s'
  | .error e s' => E e s'

namespace Yields

variable {S α β : Type} {E : Fault → S → Prop} {x : EStateM Fault S α} {f : α → EStateM Fault S β} {s s' : S} {a : α}

variable {P Q : α → S → Prop}

theorem mono (h : Yields E x s P) (hQ : ∀ a s', P a s' → Q a s') : Yields E x s Q := by
  unfold Yields at h ⊢
  cases hx : x s <;> rw [hx] at h
  · exact hQ _ _ h
  · exact h

theorem bind {Q : β → S → Prop} (h : Yields E x s P) (hf : ∀ a s', P a s' → Yields E (f a) s' Q) :
    Yields E (x >>= f) s Q := by
  unfold Yields at h ⊢
  rw [Read.bind_apply]
  cases hx : x s <;> rw [hx] at h
  · exact hf _ _ h
  · exact h

theorem bind_eq {Q : β → S → Prop} (h : x s = .ok a s') (hf : Yields E (f a) s' Q) : Yields E (x >>= f) s Q := by
  unfold Yields
  rw [Read.bind_ok h]
  exact hf

theorem ite {c : Prop} [Decidable c] {y : EStateM Fault S α} (hx : c → Yields E x s Q)
    (hy : ¬ c → Yields E y s Q) : Yields E (if c then x else y) s Q := by
  split
  · next h => exact hx h
  · next h => exact hy h

theorem with_eq (h : Yields E x s Q) : Yields E x s fun a s' => x s = .ok a s' ∧ Q a s' := by
  unfold Yields at h ⊢
  cases hx : x s <;> rw [hx] at h
  · exact ⟨rfl, h⟩
  · exact h

/-- An action for each item of a list. What holds of an item and its result goes on to hold. -/
theorem mapM {g : α → EStateM Fault S β} {P : S → α → β → Prop} {R : S → S → Prop} (refl : ∀ s, R s s)
    (trans : ∀ {a b c}, R a b → R b c → R a c) (keep : ∀ {s s' a b}, P s a b → R s s' → P s' a b) (s0 : S) (as : List α)
    (h : ∀ a ∈ as, ∀ s, R s0 s → Yields E (g a) s fun b s' => P s' a b ∧ R s s') :
    ∀ s, R s0 s → Yields E (as.mapM g) s fun bs s' => Forall₂ (P s') as bs ∧ R s s' := by
  induction as with
  | nil => exact fun s _ => ⟨.nil, refl s⟩
  | cons a as ih =>
    intro s h0
    rw [mapM_cons]
    refine (h a mem_cons_self s h0).bind fun b s1 h1 => ?_
    refine (ih (fun a ha => h a (.tail _ ha)) s1 (trans h0 h1.2)).bind fun bs s2 h2 => ?_
    exact ⟨.cons (keep h1.1 h2.2) h2.1, trans h1.2 h2.2⟩

end Yields

/-- From a desk, an action does what `Q` tells or fails plainly. -/
abbrev Runs {σ α : Type} (x : DeskM σ α) (d : Desk σ) (Q : α → Desk σ → Prop) : Prop :=
  Yields (fun e _ => e.isPlain = true) x d Q

/-- The methods that a table holds for a class. -/
def ClassTable.methodNames (t : ClassTable) (c : String) : List String := (t.info c).methods.keys

theorem ClassTable.methodNames_put (t : ClassTable) (name m : String) (returns : Ty) (c : String) :
    (t.update name fun i => { i with methods := i.methods.put m returns }).methodNames c =
      if name = c then addName (t.methodNames c) m else t.methodNames c := by
  unfold methodNames
  rw [info_update]
  split
  · exact Table.keys_put ..
  · rfl

/-- The enumerators that a table holds for a class. -/
def ClassTable.enumNames (t : ClassTable) (c : String) : List String := (t.info c).enums.keys

theorem ClassTable.enumNames_put (t : ClassTable) (name : String) (names : List String) (type : Ty) (c : String) :
    (t.update name (ClassEntry.enumerators names type).put).enumNames c =
      if name = c then names.foldl addName (t.enumNames c) else t.enumNames c := by
  have keys (names : List String) : ∀ enums : Table Ty,
      (names.foldl (fun t name => t.put name type) enums).keys = names.foldl addName enums.keys := by
    induction names with
    | nil => exact fun _ => rfl
    | cons name names ih => exact fun enums => (ih _).trans (by rw [Table.keys_put]; rfl)
  unfold enumNames
  rw [info_update]
  split
  · exact keys ..
  · rfl

namespace CPlusPlus

open Target

variable {z : Settings} {d d' d'' : Desk (Pages State)}

/-! ## Entries -/

/-- What an entry is made for. -/
inductive Source where
  | property (p : Property)
  | method (m : Method)
  | marker (a : BoundMarker)
  | signal (name : String) (params : Params)
  | enumeration (names : List String)
  /-- A member is read by a method. -/
  | getter (member method : String)
  /-- A member is written by a method. -/
  | setter (member method : String)

/-- A member of a class, with what is written for it. -/
structure Entry where
  owner : String
  source : Source
  /-- Whether it stands in the script. -/
  parsed : Bool := true
  /-- What is written in the implementation. -/
  text : String := ""
  /-- The assignments at the start of a method. -/
  first : List String := []
  /-- The assignment that waits for a `_ready` method, if there is one. -/
  waits : List String := []

def ownedBy (c : String) (xs : List Entry) : List Entry := xs.filter (·.owner = c)

/-- What stands in the script, with the classes to which it belongs. -/
def told (xs : List Entry) : List (String × Source) := (xs.filter (·.parsed)).map fun x => (x.owner, x.source)

/-- Books without the assignments that wait. -/
def ClassDraft.ledger (c : ClassDraft) : ClassDraft := { c.books with onready := [] }

def ClassDraft.enter (c : ClassDraft) : Source → ClassDraft
  | .property _ => c
  | .method m => { c with methodArgs := c.methodArgs.put m.name m.params.keys }
  | .marker a => { c with markers := c.markers ++ [a] }
  | .signal name params => { c with signals := c.signals.put name params }
  | .enumeration _ => c
  | .getter member method => { c with getters := c.getters.put member method }
  | .setter member method => { c with setters := c.setters.put member method }

/-- The books of a class after some entries. -/
def ClassDraft.enterAll (c : ClassDraft) (xs : List Entry) : ClassDraft := xs.foldl (fun c x => c.enter x.source) c

def Source.addEnumerators (names : List String) : Source → List String
  | .enumeration more => more.foldl addName names
  | _ => names

/-- The enumerators of a class after some entries, each once. -/
def enumeratorsAfter (names : List String) (xs : List Entry) : List String :=
  xs.foldl (fun names x => x.source.addEnumerators names) names

/-- The class table holds those methods of a class that were written. -/
def Agrees (d : Desk (Pages State)) (c : String) : Prop :=
  d.classes.methodNames c = (d.pages.own.draftOf c).methodArgs.keys

/-- The assignment of a property that waits. -/
inductive Waits (z : Settings) (p : Property) : List String → Prop
  | none (h : p.init = none ∨ p.onready = false) : Waits z p []
  | onready {e : Expr} {name value : String} (h : p.init = some e) (hr : p.onready = true)
      (named : CanWrite (put p.name) name) (valued : CanWrite ((dialect z).expr e) value) :
      Waits z p [name ++ " = " ++ value]

/-- Code that starts with assignments, right after its brace. -/
inductive Starts (level : Int) (first : List String) (code : String) : String → Prop
  | none (h : first = []) : Starts level first code code
  | first {gap rest : String} (hc : code = gap ++ "\x7b" ++ rest) (hg : Gap gap) :
      Starts level first code (gap ++ "\x7b" ++
        String.join (first.map fun a => "\n" ++ Text.tabs (level + 1) ++ a ++ ";") ++ rest)

/-- A name with its type before it. -/
def typedName (z : Settings) (p : String × Ty) : String := typeName z p.2 ++ " " ++ p.1

/-- The head of the definition of a method. -/
def methodHead (z : Settings) (owner : String) (m : Method) : String :=
  typeName z m.returns ++ " " ++ owner ++ "::" ++ m.name ++ "(" ++
    String.intercalate ", " (m.params.entries.map (typedName z)) ++ ")"

/-- The code of a method, or a pair of braces. -/
def bodyText (level : Int) (m : Method) : String :=
  if m.code.isEmpty then Page.indented level "\n\x7b\n\x7d" else m.code

/-- What is written for an entry. Only a `_ready` method starts with assignments. -/
inductive Entry.Sound (z : Settings) : Entry → Prop
  | property (c : String) {p : Property} {waits : List String} (h : Waits z p waits) :
      Sound z { owner := c, source := .property p, waits := waits }
  | method (c : String) {m : Method} {parsed : Bool} (level inner : Int) {first : List String} {body : String}
      (hb : Starts level first (bodyText inner m) body) (hf : first ≠ [] → m.name = "_ready")
      (hg : parsed = false → Generated m) :
      Sound z { owner := c, source := .method m, parsed := parsed, first := first
                text := Page.indented level (methodHead z c m) ++ body }
  | marker (c : String) (a : BoundMarker) : Sound z { owner := c, source := .marker a }
  | signal (c name : String) (params : Params) : Sound z { owner := c, source := .signal name params }
  | enumeration (c : String) (names : List String) : Sound z { owner := c, source := .enumeration names }
  | getter (c : String) {member method : String} {parsed : Bool} (hg : parsed = false → method = getterName member) :
      Sound z { owner := c, source := .getter member method, parsed := parsed }
  | setter (c : String) {member method : String} {parsed : Bool} (hg : parsed = false → method = setterName member) :
      Sound z { owner := c, source := .setter member method, parsed := parsed }

/-! ## What is known after entries -/

/-- What is known after the given entries were made. -/
structure Records (xs : List Entry) (d d' : Desk (Pages State)) : Prop where
  ledger : ∀ c, (d'.pages.own.draftOf c).ledger = (d.pages.own.draftOf c).ledger.enterAll (ownedBy c xs)
  /-- Assignments that wait come first in the methods that follow, and wait on if there is none. -/
  waits : ∀ c, (d.pages.own.draftOf c).onready ++ (ownedBy c xs).flatMap Entry.waits =
    (ownedBy c xs).flatMap Entry.first ++ (d'.pages.own.draftOf c).onready
  agrees : ∀ c, Agrees d c → Agrees d' c
  enums : ∀ c, d'.classes.enumNames c = enumeratorsAfter (d.classes.enumNames c) (ownedBy c xs)
  members : ∀ c, (d.classes.info c).members.keys ⊆ (d'.classes.info c).members.keys

theorem ownedBy_append (c : String) (xs ys : List Entry) : ownedBy c (xs ++ ys) = ownedBy c xs ++ ownedBy c ys :=
  filter_append ..

variable {xs ys : List Entry}

theorem Records.trans (h : Records xs d d') (h' : Records ys d' d'') : Records (xs ++ ys) d d'' where
  ledger c := by
    rw [h'.ledger, h.ledger, ownedBy_append, ClassDraft.enterAll, ClassDraft.enterAll, ClassDraft.enterAll,
      foldl_append]
  waits c := by
    rw [ownedBy_append, flatMap_append, flatMap_append, ← append_assoc, h.waits, append_assoc,
      h'.waits, append_assoc]
  agrees c hc := h'.agrees c (h.agrees c hc)
  enums c := by
    rw [h'.enums, h.enums, ownedBy_append]
    exact (foldl_append ..).symm
  members c := Subset.trans (h.members c) (h'.members c)

theorem Records.same (books : ∀ c, (d'.pages.own.draftOf c).books = (d.pages.own.draftOf c).books)
    (methods : ∀ c, d'.classes.methodNames c = d.classes.methodNames c)
    (enums : ∀ c, d'.classes.enumNames c = d.classes.enumNames c)
    (members : ∀ c, (d.classes.info c).members.keys ⊆ (d'.classes.info c).members.keys) : Records [] d d' where
  ledger c := congrArg (fun b : ClassDraft => { b with onready := [] }) (books c)
  waits c := (append_nil _).trans (congrArg (·.onready) (books c)).symm
  agrees c hc := ((methods c).trans hc).trans (congrArg (·.methodArgs.keys) (books c)).symm
  enums := enums
  members := members

theorem Records.entry {x : Entry} (owner : x.owner = d.pages.own.className)
    (className : d'.pages.own.className = d.pages.own.className)
    (others : ∀ c, x.owner ≠ c → (d'.pages.own.draftOf c).books = (d.pages.own.draftOf c).books)
    (ledger : d'.pages.own.draft.ledger = d.pages.own.draft.ledger.enter x.source)
    (waits : d.pages.own.draft.onready ++ x.waits = x.first ++ d'.pages.own.draft.onready)
    (agrees : ∀ c, Agrees d c → Agrees d' c)
    (enums : ∀ c, d'.classes.enumNames c =
      if x.owner = c then x.source.addEnumerators (d.classes.enumNames c) else d.classes.enumNames c)
    (members : ∀ c, (d.classes.info c).members.keys ⊆ (d'.classes.info c).members.keys) : Records [x] d d' := by
  have owned (c : String) : ownedBy c [x] = if x.owner = c then [x] else [] := by
    by_cases h : x.owner = c <;> simp [ownedBy, h]
  have own : d'.pages.own.draftOf x.owner = d'.pages.own.draft := by
    rw [owner, ← className]
    rfl
  have own' : d.pages.own.draftOf x.owner = d.pages.own.draft := by
    rw [owner]
    rfl
  refine ⟨fun c => ?_, fun c => ?_, agrees, fun c => ?_, members⟩
  case refine_3 =>
    rw [enums, owned]
    split <;> rfl
  all_goals by_cases hc : x.owner = c
  · rw [owned, if_pos hc, ← hc, own, own', ledger]
    rfl
  · rw [owned, if_neg hc]
    exact congrArg (fun b : ClassDraft => { b with onready := [] }) (others c hc)
  · rw [owned, ← hc, own, own']
    simpa using waits
  · rw [owned, if_neg hc]
    exact (append_nil _).trans (congrArg (·.onready) (others c hc)).symm

/-- Entries of the class that is written. What is written is made of their texts. -/
structure Made (z : Settings) (xs : List Entry) (d d' : Desk (Pages State)) : Prop extends Records xs d d' where
  page : ∃ text, d'.pages.page = d.pages.page ++ text ∧ Woven (xs.map Entry.text) text
  className : d'.pages.own.className = d.pages.own.className
  sound : ∀ x ∈ xs, x.Sound z ∧ x.owner = d.pages.own.className

theorem Made.trans (h : Made z xs d d') (h' : Made z ys d' d'') : Made z (xs ++ ys) d d'' where
  toRecords := h.toRecords.trans h'.toRecords
  page := by
    obtain ⟨t, ht, woven⟩ := h.page
    obtain ⟨t', ht', woven'⟩ := h'.page
    exact ⟨t ++ t', by rw [ht', ht, String.append_assoc], by rw [map_append]; exact woven.append woven'⟩
  className := h'.className.trans h.className
  sound x hx := (mem_append.mp hx).elim (h.sound x) fun hx => h.className ▸ h'.sound x hx

theorem Made.owned (h : Made z xs d d') : ownedBy d.pages.own.className xs = xs :=
  filter_eq_self.mpr fun x hx => decide_eq_true (h.sound x hx).2

theorem Made.draft (h : Made z xs d d') : d'.pages.own.draft.ledger = d.pages.own.draft.ledger.enterAll xs := by
  have ledger := h.ledger d.pages.own.className
  rw [h.owned] at ledger
  refine Eq.trans ?_ ledger
  rw [← h.className]
  rfl

theorem Made.enumerators (h : Made z xs d d') : d'.classes.enumNames d.pages.own.className =
    enumeratorsAfter (d.classes.enumNames d.pages.own.className) xs := by
  rw [h.enums, h.owned]

/-- Entries of which these stand in the script. -/
def Gives (z : Settings) (sources : List Source) (d d' : Desk (Pages State)) : Prop :=
  ∃ xs, Made z xs d d' ∧ told xs = sources.map (d.pages.own.className, ·)

theorem told_append (xs ys : List Entry) : told (xs ++ ys) = told xs ++ told ys := by
  rw [told, filter_append, map_append]
  rfl

variable {ss : List Source} {f : ClassDraft → ClassDraft} {p : Property}

theorem Gives.trans {ts : List Source} (h : Gives z ss d d') (h' : Gives z ts d' d'') : Gives z (ss ++ ts) d d'' := by
  obtain ⟨xs, made, said⟩ := h
  obtain ⟨ys, made', said'⟩ := h'
  refine ⟨xs ++ ys, made.trans made', ?_⟩
  rw [told_append, said, said', made.className, map_append]

/-- A member of the class that is written, which the class table knows. -/
def Known (d : Desk (Pages State)) (name : String) : Prop :=
  name ∈ (d.classes.info d.pages.own.className).members.keys

variable {name : String}

theorem Made.known (h : Made z xs d d') (hn : Known d name) : Known d' name := by
  unfold Known
  rw [h.className]
  exact h.members _ hn

theorem Gives.known (h : Gives z ss d d') (hn : Known d name) : Known d' name := by
  obtain ⟨_, made, _⟩ := h
  exact made.known hn

/-! ## Actions that make no entry -/

/-- Nothing is written but spacing, and nothing is known of it. -/
structure Still (d d' : Desk (Pages State)) : Prop where
  page : ∃ gap, d'.pages.page = d.pages.page ++ gap ∧ Spacing gap
  table : d'.classes = d.classes
  own : Calmly d.pages.own d'.pages.own

theorem Still.silent (page : d'.pages.page = d.pages.page) (table : d'.classes = d.classes)
    (own : Calmly d.pages.own d'.pages.own) : Still d d' :=
  ⟨⟨"", by rw [page, String.append_empty], .empty⟩, table, own⟩

theorem Still.refl (d : Desk (Pages State)) : Still d d := .silent rfl rfl (.refl _)

theorem Still.trans (h : Still d d') (h' : Still d' d'') : Still d d'' := by
  obtain ⟨t, ht, gap⟩ := h.page
  obtain ⟨t', ht', gap'⟩ := h'.page
  exact ⟨⟨t ++ t', by rw [ht', ht, String.append_assoc], gap.append gap'⟩, h'.table.trans h.table, h.own.trans h'.own⟩

theorem Still.draft (h : Still d d') : d'.pages.own.draft.books = d.pages.own.draft.books := by
  show (d'.pages.own.draftOf d'.pages.own.className).books = _
  rw [h.own.className]
  exact h.own.books _

theorem Still.made (h : Still d d') : Made z [] d d' where
  toRecords := .same h.own.books (fun c => by rw [h.table]) (fun c => by rw [h.table])
    fun c => by rw [h.table]; exact Subset.refl _
  page := by
    obtain ⟨gap, page, spacing⟩ := h.page
    exact ⟨gap, page, .nil spacing⟩
  className := h.own.className
  sound := nofun

theorem Still.gives (h : Still d d') : Gives z [] d d' := ⟨[], h.made, rfl⟩

theorem Gives.refl (d : Desk (Pages State)) : Gives z [] d d := (Still.refl d).gives

theorem redraft_still (d : Desk (Pages State)) (h : ∀ c : ClassDraft, (f c).books = c.books) :
    Runs (redraft f) d fun _ d' => Still d d' := Still.silent rfl rfl (.redraft _ h)

theorem typeText_still (type : Ty) (d : Desk (Pages State)) :
    Runs (typeText z type) d fun text d' => text = typeName z type ∧ Still d d' :=
  ⟨rfl, .silent rfl rfl (.of_drafts rfl rfl)⟩

theorem paramTexts_still (ps : List (String × Ty)) (d : Desk (Pages State)) :
    Runs (ps.mapM (paramText z)) d fun texts d' => texts = ps.map (typedName z) ∧ Still d d' := by
  induction ps generalizing d with
  | nil => exact ⟨rfl, .refl d⟩
  | cons p ps ih =>
    rw [mapM_cons]
    refine Yields.bind (P := fun text d' => text = typedName z p ∧ Still d d') ?_ fun text d1 h1 => ?_
    · exact ⟨rfl, .silent rfl rfl (.of_drafts rfl rfl)⟩
    · exact (ih d1).bind fun texts d2 h2 => ⟨by rw [h1.1, h2.1]; rfl, h1.2.trans h2.2⟩

/-- What is written on a page of its own leaves no trace. -/
theorem onPage_still {act : PlusM Unit} (h : ∀ M : PageManner State Calmly, M.Allows act) (d : Desk (Pages State)) :
    Runs (Page.onPage act) d fun _ d' => Still d d' := by
  have calmly := calm.onPage (h calm) d
  unfold Runs Yields
  cases hd : Page.onPage act d with
  | error e d' =>
    rw [hd] at calmly
    exact calmly
  | ok text d' =>
    rw [hd] at calmly
    obtain ⟨_, _, acted, -, -, returns⟩ := Page.onPage_eq_ok hd
    exact .silent (returns ((h (.adding .refl)).ok acted).1).1 calmly.1 calmly.2

theorem forall_indented {P : Char → Prop} (line : P '\n') (tab : P '\t') {text : String} (h : ∀ c ∈ text.toList, P c)
    (level : Int) : ∀ c ∈ (Page.indented level text).toList, P c := by
  intro c hc
  rw [Outline.toList_indented] at hc
  obtain ⟨x, hx, hc⟩ := mem_flatMap.mp hc
  split at hc
  · rcases mem_cons.mp hc with rfl | hc
    · exact line
    · exact eq_of_mem_replicate hc ▸ tab
  · rw [mem_singleton.mp hc]
    exact h x hx

theorem spacing_indented {text : String} (h : Spacing text) (level : Int) : Spacing (Page.indented level text) :=
  forall_indented (.inl rfl) (.inr (.inl rfl)) h level

/-- A line end is spacing on the page, or stands outside all scopes. -/
theorem putLine_still (d : Desk (Pages State)) : Runs (put "\n") d fun _ d' => Still d d' := by
  unfold Runs Yields
  by_cases level : d.pages.level ≤ 0
  · obtain ⟨_, d', written, -, table, pages, -⟩ := put_outside "\n" rfl level d rfl rfl
    rw [written]
    refine .silent (by rw [pages]) table ?_
    rw [pages]
    exact Tolerant.lines _ "\n" rfl _
  · obtain ⟨_, d', written, -, table, pages, -⟩ := 
      (put_serves (.inr (by omega)) : Read.Serves (put "\n") d.classes d.pages _ _) d rfl rfl
    rw [written]
    refine ⟨⟨_, by rw [pages], spacing_indented (by decide) _⟩, table, ?_⟩
    rw [pages]
    exact .refl _

theorem closeScopes_still (n : Nat) : ∀ d : Desk (Pages State), Runs (closeScopes n) d fun _ d' => Still d d' := by
  induction n with
  | zero => exact fun d => .refl d
  | succ n ih =>
    intro d
    refine Yields.bind (P := fun _ d' => Still d d') ?_ fun _ d1 h1 => (ih d1).mono fun _ _ h2 => h1.trans h2
    unfold Yields
    by_cases level : d.pages.level = 0
    · obtain ⟨_, d', closed, -, table, pages, -⟩ := closeScope_serves_none level d rfl rfl
      rw [closed]
      exact .silent (by rw [pages]) table (by rw [pages]; exact .refl _)
    · obtain ⟨_, d', closed, -, table, pages, -⟩ := closeScope_serves level d rfl rfl
      rw [closed]
      refine ⟨⟨_, by rw [pages], spacing_indented (by decide) _⟩, table, ?_⟩
      rw [pages]
      exact .refl _

/-! ## Entries of drafts -/

theorem redraft_makes {s : Source} {waits : List String} {b : Bool} {d : Desk (Pages State)}
    (sound : Entry.Sound z { owner := d.pages.own.className, source := s, parsed := b, waits := waits })
    (ledger : (f d.pages.own.draft).ledger = d.pages.own.draft.ledger.enter s)
    (onready : (f d.pages.own.draft).onready = d.pages.own.draft.onready ++ waits)
    (args : (f d.pages.own.draft).methodArgs = d.pages.own.draft.methodArgs)
    (enums : ∀ names, s.addEnumerators names = names := by exact fun _ => rfl) : Runs (redraft f) d fun _ d' =>
      Made z [{ owner := d.pages.own.className, source := s, parsed := b, waits := waits }] d d' := by
  have draft := State.draftOf_redraft d.pages.own f
  have own : (d.pages.own.redraft f).draft = f d.pages.own.draft := (draft _).trans (if_pos rfl)
  refine ⟨.entry rfl rfl (fun c hc => ?_) ?_ ?_ (fun c hc => ?_) (fun c => ?_) fun c => Subset.refl _,
    ⟨"", String.append_empty.symm, by simpa using Woven.one (x := "") .empty⟩, rfl,
    fun x hx => by rw [mem_singleton.mp hx]; exact ⟨sound, rfl⟩⟩
  · exact congrArg _ ((draft c).trans (if_neg hc))
  · exact (congrArg _ own).trans ledger
  · exact (onready.symm.trans (congrArg _ own).symm : _)
  · refine Eq.trans hc (congrArg Table.keys ?_)
    rw [draft]
    split
    · next h => exact h ▸ args.symm
    · rfl
  · rw [enums, ite_self]

theorem gives_of_made {x : PlusM Unit} {s : Source} {waits : List String}
    (h : Runs x d fun _ d' => Made z [{ owner := d.pages.own.className, source := s, waits := waits }] d d') :
    Runs x d fun _ d' => Gives z [s] d d' :=
  h.mono fun _ _ made => ⟨_, made, rfl⟩

/-! ## Methods -/

variable {code : String}

theorem Bodied.starts (h : Bodied code) (level : Int) (first : List String) :
    Starts level first code (Dialect.withFirstStatements level first code) := by
  obtain ⟨gap, rest, rfl, hg⟩ := h
  have walk (new : List Char) (cs : List Char) : (∀ c ∈ cs, c = '\n' ∨ c = '\t') →
      Text.swapFirst '\x7b' new (cs ++ '\x7b' :: rest.toList) = cs ++ new ++ rest.toList := by
    induction cs with
    | nil => exact fun _ => rfl
    | cons c cs ih =>
      intro h
      have other : c ≠ '\x7b' := by rcases h c mem_cons_self with rfl | rfl <;> decide
      rw [cons_append, Text.swapFirst, if_neg other, ih fun c hc => h c (.tail _ hc)]
      rfl
  have eq : Dialect.withFirstStatements level first (gap ++ "\x7b" ++ rest) = gap ++ "\x7b" ++
      String.join (first.map fun a => "\n" ++ Text.tabs (level + 1) ++ a ++ ";") ++ rest := by
    refine String.toList_injective ?_
    rw [Dialect.withFirstStatements, Text.toList_replaceFirst _ _ (x := '\x7b') rfl]
    have walked := walk ("\x7b" ++ String.join (first.map fun a => "\n" ++ Text.tabs (level + 1) ++ a ++ ";")).toList
      gap.toList hg
    simpa using walked
  rw [eq]
  exact .first rfl hg

variable {m : Method}

theorem bodied_bodyText (hb : m.code ≠ "" → Bodied m.code) (level : Int) : Bodied (bodyText level m) := by
  unfold bodyText
  split
  · simpa using bodied_indented level "\n\x7d" ""
  · next h => exact hb (by simpa using h)

theorem methodCode_runs (m : Method) (d : Desk (Pages State)) :
    Runs (methodCode m) d fun code d' => code = bodyText d.pages.level m ∧ Still d d' := by
  unfold bodyText
  refine .ite (fun h => ?_) fun h => ?_
  · rw [if_pos h]
    have still := onPage_still (fun M => put_allowed M "\n\x7b\n\x7d") d
    obtain ⟨_, d1, h1, -, -, pages, -⟩ := put_serves (.inl (by decide : "\n\x7b\n\x7d".toList.all (· == '\n') = false))
      { d with pages := { d.pages with page := "", below := d.pages.page :: d.pages.below } } rfl rfl
    have written : Page.onPage (put "\n\x7b\n\x7d") d = Page.takePage d1 :=
      Read.bind_ok (f := fun _ => Page.takePage) h1
    unfold Runs Yields at still
    unfold Yields
    rw [written] at still ⊢
    refine ⟨?_, still⟩
    rw [pages]
    exact String.empty_append
  · rw [if_neg h]
    exact ⟨rfl, .refl d⟩

/-- A method that was declared, and defined with its code. -/
structure Defined (m : Method) (first : List String) (text : String) (d d' : Desk (Pages State)) : Prop where
  className : d'.pages.own.className = d.pages.own.className
  table : d'.classes = d.classes
  others : ∀ c, d.pages.own.className ≠ c → (d'.pages.own.draftOf c).books = (d.pages.own.draftOf c).books
  own : ∃ left, d'.pages.own.draft.books = { d.pages.own.draft.books with onready := left } ∧
    first ++ left = d.pages.own.draft.onready ∧ (m.name = "_ready" → left = [])
  page : ∃ gap, d'.pages.page = d.pages.page ++ (gap ++ text) ∧ Spacing gap

theorem declaredParams_still (inits : Table Expr) (ps : List (String × Ty)) (d : Desk (Pages State)) :
    Runs (ps.mapM (declaredParam z inits)) d fun _ d' => Still d d' := by
  induction ps generalizing d with
  | nil => exact .refl d
  | cons p ps ih =>
    rw [mapM_cons]
    refine Yields.bind (P := fun _ d' => Still d d') ?_ fun _ d1 h1 => (ih d1).bind fun _ d2 h2 => h1.trans h2
    refine Yields.bind (P := fun _ d' => Still d d') (.silent rfl rfl (.of_drafts rfl rfl)) fun _ d1 h1 => ?_
    cases inits.find? p.1 with
    | none => exact h1
    | some e => exact (onPage_still (fun M => (dialect_allowed M z).expr e) d1).bind fun _ d2 h2 => h1.trans h2

theorem defineMethod_runs {code : String} (hb : m.name = "_ready" → Bodied code) (d : Desk (Pages State)) :
    Runs (defineMethod z m code) d fun _ d' => ∃ level first body, Starts level first code body ∧
      (first ≠ [] → m.name = "_ready") ∧ Defined m first
        (Page.indented level (methodHead z d.pages.own.className m) ++ body) d d' := by
  -- up to the head of the definition
  refine (redraft_still d ClassDraft.books_toPublic).bind fun _ d1 h1 => ?_
  refine (typeText_still _ d1).bind fun _ d2 h2 => ?_
  refine (declaredParams_still _ _ d2).bind fun _ d3 h3 => ?_
  refine (redraft_still d3 (by intro; rfl)).bind fun _ d4 h4 => ?_
  refine (typeText_still m.returns d4).bind fun returns d5 ⟨typed, h5⟩ => ?_
  refine (paramTexts_still m.params.entries d5).bind fun params d6 ⟨listed, h6⟩ => .bind_eq rfl ?_
  have before := ((((h1.trans h2.2).trans h3).trans h4).trans h5).trans h6
  rw [before.own.className, typed, listed]
  have colon : ':' ∈ (methodHead z d.pages.own.className m).toList := by simp [methodHead]
  obtain ⟨_, d7, h7, -, table7, pages, -⟩ := put_serves (.inl (all_eq_false.mpr ⟨':', colon, by decide⟩)) d6 rfl rfl
  refine .bind_eq h7 <| .bind_eq rfl ?_
  -- what is known before the code is written
  have own7 : d7.pages.own = d6.pages.own := by rw [pages]
  have draft : d7.pages.own.draft.books = d.pages.own.draft.books := by
    rw [own7]
    exact before.draft
  have waiting : d7.pages.own.draft.onready = d.pages.own.draft.onready := congrArg (·.onready) draft
  have others (c : String) : (d7.pages.own.draftOf c).books = (d.pages.own.draftOf c).books := by
    rw [own7]
    exact before.own.books c
  have name : d7.pages.own.className = d.pages.own.className := by
    rw [own7]
    exact before.own.className
  obtain ⟨gap, page6, spacing⟩ := before.page
  have page (body : String) : d7.pages.page ++ body = d.pages.page ++ (gap ++
      (Page.indented d7.pages.level (methodHead z d.pages.own.className m) ++ body)) := by
    have page7 : d7.pages.page =
        d6.pages.page ++ Page.indented d7.pages.level (methodHead z d.pages.own.className m) := by
      rw [pages]
    rw [page7, page6]
    simp only [String.append_assoc]
  have table := table7.trans before.table
  refine .ite (fun ready => .bind_eq rfl <| .bind_eq rfl ?_) fun other => ?_
  · have redrafted := State.draftOf_redraft d7.pages.own fun c => { c with onready := [] }
    refine ⟨d7.pages.level, d7.pages.own.draft.onready, _, (hb ready.1).starts .., fun _ => ready.1, name, table,
      fun c hc => ?_, ⟨[], ?_, ?_, fun _ => rfl⟩, gap, page _, spacing⟩
    · exact (congrArg _ ((redrafted c).trans (if_neg (name ▸ hc)))).trans (others c)
    · refine (congrArg _ ((redrafted _).trans (if_pos rfl))).trans ?_
      rw [← draft]
      rfl
    · rw [append_nil, waiting]
  · refine ⟨d7.pages.level, [], code, .none rfl, nofun, name, table, fun c _ => others c,
      ⟨d.pages.own.draft.onready, draft, rfl, fun hn => ?_⟩, gap, page _, spacing⟩
    simpa [hn, waiting] using other

/-- **A method makes one entry.** The class table may know it before. -/
theorem method_runs {b : Bool} (hg : b = false → Generated m)
    (hb : m.name = "_ready" → m.code ≠ "" → Bodied m.code) (d : Desk (Pages State)) {t : ClassTable}
    (hn : ∀ c, t.methodNames c = d.classes.methodNames c ∨
      d.pages.own.className = c ∧ t.methodNames c = addName (d.classes.methodNames c) m.name)
    (he : ∀ c, t.enumNames c = d.classes.enumNames c)
    (hm : ∀ c, (d.classes.info c).members.keys ⊆ (t.info c).members.keys) :
    Runs (method z m) { d with classes := t } fun _ d' => ∃ x : Entry, x.source = .method m ∧ x.parsed = b ∧
      Made z [x] d d' ∧ (m.name = "_ready" → d'.pages.own.draft.onready = []) := by
  rw [method_eq]
  refine .bind_eq (show addMethod m { d with classes := t } =
    .ok () (Read.endState (addMethod m { d with classes := t })) from rfl) ?_
  generalize h0 : Read.endState (addMethod m { d with classes := t }) = d0
  refine (methodCode_runs m d0).bind fun code d1 ⟨coded, h1⟩ => ?_
  rw [coded]
  refine (defineMethod_runs (fun h => bodied_bodyText (hb h) _) d1).mono
    fun _ d2 ⟨level, first, body, starts, ready, h2⟩ => ?_
  have redrafted (c : String) : (d0.pages.own.draftOf c).books = if d.pages.own.className = c then
      { (d.pages.own.draftOf c).books with
        methodArgs := (d.pages.own.draftOf c).methodArgs.put m.name m.params.keys }
      else (d.pages.own.draftOf c).books := by
    rw [← h0]
    refine (congrArg _ (State.draftOf_redraft d.pages.own _ c)).trans ?_
    split <;> rfl
  have name0 : d0.pages.own.className = d.pages.own.className := by
    rw [← h0]
    rfl
  have name1 : d1.pages.own.className = d.pages.own.className := h1.own.className.trans name0
  have books0 : d0.pages.own.draft.books = { d.pages.own.draft.books with
      methodArgs := d.pages.own.draft.methodArgs.put m.name m.params.keys } := by
    refine (redrafted _).trans ?_
    rw [if_pos name0.symm, name0]
    rfl
  obtain ⟨left, own, spent, none⟩ := h2.own
  have draft : d2.pages.own.draft.books = { d.pages.own.draft.books with
      methodArgs := d.pages.own.draft.methodArgs.put m.name m.params.keys, onready := left } := by
    rw [own, h1.draft, books0]
  have others (c : String) (hc : d.pages.own.className ≠ c) :
      (d2.pages.own.draftOf c).books = (d.pages.own.draftOf c).books := by
    rw [h2.others c (name1 ▸ hc), h1.own.books c, redrafted, if_neg hc]
  have table : d2.classes = t.update d.pages.own.className fun i =>
    { i with methods := i.methods.put m.name m.returns } :=
    (h2.table.trans h1.table).trans (by rw [← h0]; rfl)
  have sound := Entry.Sound.method (z := z) d.pages.own.className level _ starts ready hg
  refine ⟨_, rfl, rfl, ⟨.entry rfl (h2.className.trans name1) others ?_ ?_ (fun c hc => ?_) (fun c => ?_)
    (fun c => ?_), ?_,
    h2.className.trans name1, fun x hx => by rw [mem_singleton.mp hx]; exact ⟨sound, rfl⟩⟩, fun h => ?_⟩
  · exact congrArg (fun b : ClassDraft => { b with onready := [] }) draft
  · have waiting : d1.pages.own.draft.onready = d.pages.own.draft.onready :=
      congrArg (·.onready) (h1.draft.trans books0)
    rw [append_nil, ← waiting, ← spent]
    exact congrArg (first ++ ·) (congrArg (·.onready) draft).symm
  · unfold Agrees at hc ⊢
    rw [table, ClassTable.methodNames_put]
    by_cases same : d.pages.own.className = c
    · have keys : (d2.pages.own.draftOf c).methodArgs.keys = addName (d.classes.methodNames c) m.name := by
        rw [hc, ← same]
        refine Eq.trans ?_ ((congrArg (·.methodArgs.keys) draft).trans (Table.keys_put ..))
        rw [← h2.className.trans name1]
        rfl
      rw [if_pos same, keys]
      rcases hn c with h | ⟨-, h⟩ <;> rw [h]
      exact addName_idem ..
    · rw [if_neg same, (hn c).resolve_right fun h => same h.1, hc]
      exact (congrArg (·.methodArgs.keys) (others c same)).symm
  · rw [table, ClassTable.enumNames, ClassTable.info_update]
    exact Eq.trans (by split <;> rfl) ((he c).trans (ite_self _).symm)
  · rw [table, ClassTable.info_update]
    split <;> exact hm c
  · obtain ⟨gap, page, spacing⟩ := h2.page
    obtain ⟨gap', page', spacing'⟩ := h1.page
    have page0 : d0.pages.page = d.pages.page := by rw [← h0]; rfl
    refine ⟨gap' ++ gap ++ _, ?_, .one (spacing'.append spacing)⟩
    rw [page, page', page0, name1]
    simp only [String.append_assoc]
  · exact (congrArg (·.onready) draft).trans (none h)

/-! ## Properties -/

section assigned

variable {e : Expr}

theorem assignment_writes {a : Unit} (h : (dialect z).assignment e d = .ok a d') :
    ∃ value, CanWrite ((dialect z).expr e) value ∧ d'.pages.page = d.pages.page ++ (" = " ++ value) := by
  obtain ⟨_, d1, h1, h2⟩ := Read.bind_eq_ok h
  obtain ⟨_, _, put, -, -, pages, -⟩ := put_serves (.inl (by decide : " = ".toList.all (· == '\n') = false)) d rfl rfl
  cases h1.symm.trans put
  obtain ⟨-, value, page⟩ := ((dialect_allowed (.adding .refl : PageManner State Calmly) z).expr e).ok h2
  refine ⟨value, ⟨d1, d', h2, page⟩, ?_⟩
  rw [page, pages, Page.indented_eq (by decide), String.append_assoc]

theorem onPage_assignment {text : String} (h : Page.onPage ((dialect z).assignment e) d = .ok text d') :
    ∃ value, CanWrite ((dialect z).expr e) value ∧ text = " = " ++ value := by
  obtain ⟨d0, d1, acted, start, rfl, -⟩ := Page.onPage_eq_ok h
  obtain ⟨value, written, page⟩ := assignment_writes acted
  exact ⟨value, written, by rw [page, start, String.empty_append]⟩

theorem onPage_namedAssignment {name text : String}
    (h : Page.onPage (do put name; (dialect z).assignment e) d = .ok text d') : ∃ head value,
      CanWrite (put name) head ∧ CanWrite ((dialect z).expr e) value ∧ text = head ++ " = " ++ value := by
  obtain ⟨d0, d1, acted, start, rfl, -⟩ := Page.onPage_eq_ok h
  obtain ⟨_, d2, named, acted⟩ := Read.bind_eq_ok acted
  obtain ⟨-, head, page2⟩ := (put_allowed (.adding .refl : PageManner State Calmly) name).ok named
  obtain ⟨value, written, page⟩ := assignment_writes acted
  refine ⟨head, value, ⟨d0, d2, named, page2⟩, written, ?_⟩
  rw [page, page2, start, String.empty_append, String.append_assoc]

end assigned

/-- Writes the initial value of a property, or puts the assignment down for `_ready` or for the end of the class. -/
def initialValue (z : Settings) (p : Property) : PlusM Unit :=
  match p.init with
  | none => pure ()
  | some e =>
    if p.onready then do
      let text ← Page.onPage (do put p.name; (dialect z).assignment e)
      redraft fun c => { c with onready := c.onready ++ [text] }
    else if p.static then do
      let head := p.type ++ " " ++ (← Page.own).className ++ "::" ++ p.name
      let text ← Page.onPage (do put head; (dialect z).assignment e)
      redraft fun c => { c with statics := c.statics ++ [text] }
    else do
      let text ← Page.onPage ((dialect z).assignment e)
      redraft (·.add text)

theorem property_eq (p : Property) : property z p = (do
    redraft ClassDraft.toProtected
    let type ← typeText z (some p.type)
    redraft (·.add ("\t" ++ (if p.constant then "const " else if p.static then "static " else "") ++
      type ++ " " ++ p.name))
    initialValue z p
    redraft (·.add ";")) := by
  unfold property initialValue
  cases p.init with
  | none => rfl
  | some e => cases p.onready <;> cases p.static <;> simp

theorem initialValue_still (h : p.init = none ∨ p.onready = false) (d : Desk (Pages State)) :
    Runs (initialValue z p) d fun _ d' => Still d d' := by
  have act (M : PageManner State Calmly) (e : Expr) : M.Allows ((dialect z).assignment e) :=
    (dialect_allowed M z).assignment e
  unfold initialValue
  cases hp : p.init with
  | none => exact .refl d
  | some e =>
    rw [hp] at h
    have now : p.onready = false := h.resolve_left nofun
    dsimp only
    rw [if_neg (by rw [now]; decide)]
    refine .ite (fun _ => .bind_eq rfl ?_) fun _ => ?_
    · exact (onPage_still (fun M => putThen_allowed M (act M e)) d).bind fun _ d1 h1 =>
        (redraft_still d1 (by intro; rfl)).mono fun _ _ h2 => h1.trans h2
    · exact (onPage_still (fun M => act M e) d).bind fun _ d1 h1 =>
        (redraft_still d1 (by intro; rfl)).mono fun _ _ h2 => h1.trans h2

/-- **A property makes one entry**, with the assignment that waits. -/
theorem property_runs (p : Property) (d : Desk (Pages State)) :
    Runs (property z p) d fun _ d' => Gives z [.property p] d d' := by
  rw [property_eq]
  refine (redraft_still d ClassDraft.books_toProtected).bind fun _ d1 h1 => ?_
  refine (typeText_still _ d1).bind fun _ d2 h2 => ?_
  refine (redraft_still d2 (by intro; rfl)).bind fun _ d3 h3 => ?_
  have before : Gives z [] d d3 := ((h1.trans h2.2).trans h3).gives
  suffices h : Runs (do initialValue z p; redraft (·.add ";")) d3 fun _ d' => Gives z [.property p] d3 d' from
    h.mono fun _ _ h => before.trans h
  by_cases now : p.init = none ∨ p.onready = false
  · -- nothing waits: the last action makes the entry
    refine (initialValue_still now d3).bind fun _ d4 h4 => ?_
    exact (gives_of_made (redraft_makes (.property _ (.none now)) rfl (append_nil _).symm rfl)).mono fun _ _ h =>
      h4.gives.trans h
  · obtain ⟨some, later⟩ := not_or.mp now
    obtain ⟨e, hp⟩ := Option.ne_none_iff_exists'.mp some
    have hr : p.onready = true := by simpa using later
    rw [initialValue, hp]
    dsimp only
    rw [if_pos hr, bind_assoc]
    refine (onPage_still (fun M => putThen_allowed M ((dialect_allowed M z).assignment e)) d3).with_eq.bind
      fun text d4 ⟨written, h4⟩ => ?_
    obtain ⟨name, value, named, valued, rfl⟩ := onPage_namedAssignment written
    refine (gives_of_made (redraft_makes (.property _ (.onready hp hr named valued)) rfl rfl rfl)).bind
      fun _ d5 h5 => ?_
    exact (redraft_still d5 (by intro; rfl)).mono fun _ _ h6 => h4.gives.trans (h5.trans h6.gives)

/-! ## Accessors -/

theorem memberType_eq (h : Known d name) : ∃ type, memberType name d = .ok type d := by
  obtain ⟨t, ht⟩ := Table.exists_of_mem_keys h
  unfold memberType
  rw [Read.bind_ok (rfl : classInfo d = .ok (d.classes.info d.pages.own.className) d), ht]
  exact ⟨t, rfl⟩

theorem generated_runs (hg : Generated m) (hn : m.name ≠ "_ready") (d : Desk (Pages State)) :
    Runs (method z m) d fun _ d' => ∃ x : Entry, x.source = .method m ∧ x.parsed = false ∧ Made z [x] d d' :=
  (method_runs (b := false) (fun _ => hg) (fun h => absurd h hn) d (fun _ => .inl rfl) (fun _ => rfl)
    fun _ => Subset.refl _).mono fun _ _ ⟨x, source, parsed, made, _⟩ => ⟨x, source, parsed, made⟩

/-- An accessor makes an entry, and its method another one. Only the first may stand in the script. -/
def Enters (z : Settings) (s : Source) (b : Bool) (d d' : Desk (Pages State)) : Prop :=
  Gives z (if b then [s] else []) d d' ∧
    ∃ m : Method, d'.pages.own.draft.ledger = (d.pages.own.draft.ledger.enter s).enter (.method m)

theorem accessor_enters {s : Source} {b : Bool} {f : ClassDraft → ClassDraft} {act : PlusM Unit}
    (made : Runs (redraft f) d fun _ d' => Made z [{ owner := d.pages.own.className, source := s, parsed := b }] d d')
    {m : Ty → Method} (h : Known d name) (hg : ∀ t, Generated (m t)) (hn : ∀ t, (m t).name ≠ "_ready")
    (ha : act = do redraft f; method z (m (← memberType name))) : Runs act d fun _ => Enters z s b d := by
  rw [ha]
  refine made.bind fun _ d1 h1 => ?_
  obtain ⟨type, ht⟩ := memberType_eq (h1.known h)
  refine .bind_eq ht <| (generated_runs (hg _) (hn _) d1).mono fun _ _ ⟨x, hx, hp, h2⟩ => ?_
  have both := h1.trans h2
  refine ⟨⟨_, both, ?_⟩, m type, ?_⟩
  · cases b <;> simp [told, hp]
  · rw [both.draft]
    show (d.pages.own.draft.ledger.enter s).enter x.source = _
    rw [hx]

theorem getter_runs (h : Known d name) (code : String) (b : Bool) :
    Runs (getter z name code) d fun _ => Enters z (.getter name (getterName name)) b d :=
  accessor_enters (redraft_makes (.getter _ fun _ => rfl) rfl (append_nil _).symm rfl) h (fun _ => .getter ..)
    (fun _ h => absurd (congrArg (·.toList.head?) h) (by simp [getterName])) rfl

theorem setter_runs (h : Known d name) (value code : String) (b : Bool) :
    Runs (setter z name value code) d fun _ => Enters z (.setter name (setterName name)) b d :=
  accessor_enters (redraft_makes (.setter _ fun _ => rfl) rfl (append_nil _).symm rfl) h (fun _ => .setter ..)
    (fun _ h => absurd (congrArg (·.toList.head?) h) (by simp [setterName])) rfl

/-- What an accessor of a member is entered for. -/
def Source.ofAccessor (member : String) : Accessor → Source
  | .getterMethod m => .getter member m
  | .setterMethod m => .setter member m
  | .getter _ => .getter member (getterName member)
  | .setter _ _ => .setter member (setterName member)

theorem accessor_runs (h : Known d p.name) (a : Accessor) :
    Runs (accessor z p a) d fun _ d' => Gives z [.ofAccessor p.name a] d d' := by
  cases a with
  | getterMethod m => exact gives_of_made (redraft_makes (.getter _ nofun) rfl (append_nil _).symm rfl)
  | setterMethod m => exact gives_of_made (redraft_makes (.setter _ nofun) rfl (append_nil _).symm rfl)
  | getter code => exact (getter_runs h code true).mono fun _ _ h => h.1
  | setter value code => exact (setter_runs h value code true).mono fun _ _ h => h.1

theorem endProperty_runs (h : Known d p.name) (accessors : List Accessor) :
    Runs (endProperty z p accessors) d fun _ d' => Gives z [] d d' := by
  have missing {d' : Desk (Pages State)} (h' : Gives z [] d d') (b : Bool) :
      Runs (do if b then defaultSetter z p.name) d' fun _ d'' => Gives z [] d d'' :=
    .ite (fun _ => (setter_runs (h'.known h) _ _ false).mono fun _ _ h'' => h'.trans h''.1) fun _ => h'
  exact .ite (fun _ => (getter_runs h _ false).bind fun _ _ h' => missing h'.1 _) fun _ => missing (.refl d) _

/-! ## Other members -/

theorem enumerators_still (inits : Table Expr) (names : List String) (d : Desk (Pages State)) :
    Runs ((dialect z).enumerators inits names) d fun _ d' => Still d d' := by
  induction names generalizing d with
  | nil => exact .refl d
  | cons n names ih =>
    have rest {d' : Desk (Pages State)} (h : Still d d') (text : String) :
        Runs (do return text :: (← (dialect z).enumerators inits names)) d' fun _ d'' => Still d d'' :=
      (ih d').bind fun _ _ h' => h.trans h'
    unfold Dialect.enumerators
    cases inits.find? n with
    | none => exact rest (.refl d) n
    | some e => exact (onPage_still (fun M => (dialect_allowed M z).expr e) d).bind fun _ _ h => rest h _

/-- **An enumeration makes one entry** once the class table knows it. -/
theorem enumeration_runs (name : String) (values : Params) (inits : Table Expr) (type : Ty) (d : Desk (Pages State)) :
    Runs (enumeration z name values inits) { d with
      classes := d.classes.update d.pages.own.className (ClassEntry.enumerators values.keys type).put }
      fun _ d' => Gives z [.enumeration values.keys] d d' := by
  have known : Gives z [.enumeration values.keys] d { d with
      classes := d.classes.update d.pages.own.className (ClassEntry.enumerators values.keys type).put } := by
    refine ⟨[{ owner := d.pages.own.className, source := .enumeration values.keys }],
      ⟨.entry rfl rfl (fun _ _ => rfl) rfl (append_nil _) (fun c hc => Eq.trans ?_ hc)
        (ClassTable.enumNames_put _ _ _ _) fun c => ?_,
      ⟨"", String.append_empty.symm, by simpa using Woven.one (x := "") .empty⟩, rfl, fun x hx => ?_⟩, rfl⟩
    · rw [ClassTable.methodNames, ClassTable.info_update]
      split <;> rfl
    · rw [ClassTable.info_update]
      split <;> exact Subset.refl _
    · rw [mem_singleton.mp hx]
      exact ⟨.enumeration .., rfl⟩
  refine (enumerators_still inits _ _).bind fun _ d1 h1 => ?_
  refine Yields.mono ?_ fun _ _ h2 => known.trans (h1.trans h2).gives
  exact redraft_still d1 fun c => c.books_toPublic

theorem signal_runs (name : String) (params : Params) (d : Desk (Pages State)) :
    Runs (signal z name params) d fun _ d' => Gives z [.signal name params] d d' := by
  refine (gives_of_made (redraft_makes (z := z) (.signal ..) rfl (append_nil _).symm rfl)).bind fun _ d1 h1 => ?_
  refine (paramTexts_still _ d1).bind fun _ d2 h2 => ?_
  exact (redraft_still d2 (by intro; rfl)).mono fun _ _ h3 => h1.trans (h2.2.trans h3).gives

/-! ## Bindings -/

/-- Names in quotes, with commas between them. -/
def quotedNames (names : List String) : String := String.intercalate ", " (names.map fun n => "\"" ++ n ++ "\"")

/-- The line that binds a method, with the names of its parameters. -/
def bindLine (c : String) (args : Table (List String)) (name : String) : String :=
  "\tClassDB::bind_method(D_METHOD(" ++ quotedNames (name :: (args.find? name).getD []) ++ "), &" ++
    c ++ "::" ++ name ++ ");\n"

/-- The lines that bind the public methods of a class, in the order in which their names were first entered. -/
def bindLines (c : String) (args : Table (List String)) : List String :=
  (args.keys.filter fun n => !Text.startsWith n "_").map (bindLine c args)

/-- The line that binds an enumerator. -/
def enumLine (name : String) : String :=
  "\tClassDB::bind_integer_constant(get_class_static(), _gde_constant_get_enum_name(" ++ name ++ ", \"" ++ name ++
    "\"), \"" ++ name ++ "\", " ++ name ++ ");"

/-- The line that binds a signal, with the types and the names of its parameters. -/
def signalLine (z : Settings) (e : String × Params) : String :=
  "\tClassDB::add_signal(get_class_static(), MethodInfo(" ++ String.intercalate ", " (("\"" ++ e.1 ++ "\"") ::
    e.2.entries.map fun p => "PropertyInfo(" ++ variantType z (p.2.getD "") ++ ", \"" ++ p.1 ++ "\")") ++ "));\n"

/-- The hint of an annotation, with its arguments. -/
def hintText (a : BoundMarker) : String :=
  if exportHint a.name = "EXPORT" then "" else ", " ++ exportHint a.name ++ ", \"" ++ a.args ++ "\""

/-- The line of an annotation: a group, or a property with the methods that write and read it. Signals have none. -/
inductive PropertyLine (z : Settings) (b : ClassDraft) (a : BoundMarker) : String → Prop
  | group (h : a.member = none ∨ a.member = some "") : PropertyLine z b a ("\tClassDB::add_property_" ++
      Text.replaceAll a.name "export_" "" ++ "(get_class_static(), \"" ++ a.args ++ "\",\"\");\n")
  | signal {member type : String} (h : a.member = some member) (hs : Text.startsWith type "signal" = true) :
      PropertyLine z b a ""
  | property {member setter getter : String} (type : String) (h : a.member = some member)
      (hs : accessorOf b.setters member = some setter) (hg : accessorOf b.getters member = some getter) :
      PropertyLine z b a ("\tClassDB::add_property(get_class_static(), PropertyInfo(" ++ variantType z type ++ ", \"" ++
        member ++ "\"" ++ hintText a ++ "), \"" ++ setter ++ "\", \"" ++ getter ++ "\");\n")

/-- The code that binds the members of a class: one line for each public method, enumerator, annotation and signal. -/
inductive BindCode (z : Settings) (c : String) (b : ClassDraft) (enumerators : List String) : String → Prop
  | lines {properties : List String} (h : Forall₂ (PropertyLine z b) b.markers properties) :
      BindCode z c b enumerators (" \x7b\n" ++ String.join (bindLines c b.methodArgs) ++
        String.intercalate "\n" (enumerators.map enumLine) ++ "\n" ++ String.join properties ++
        String.join (b.signals.entries.map (signalLine z)) ++ "\x7d\n")

theorem append_afterCommas (x : String) (xs : List String) : x ++ afterCommas xs = String.intercalate ", " (x :: xs) :=
  (intercalate_cons ..).symm

theorem signalBinding_eq : signalBinding z = signalLine z := by
  funext e
  have start : "\tClassDB::add_signal(get_class_static(), MethodInfo(\"" =
      "\tClassDB::add_signal(get_class_static(), MethodInfo(" ++ "\"" := by simp
  unfold signalBinding signalLine
  rw [← append_afterCommas]
  dsimp only
  simp only [start, String.append_assoc]

theorem bindLine_eq {args : Table (List String)} {names : List String} (h : args.find? name = some names) (c : String) :
    "\tClassDB::bind_method(D_METHOD(\"" ++ name ++ "\"" ++ afterCommas (names.map fun a => "\"" ++ a ++ "\"") ++
      "), &" ++ c ++ "::" ++ name ++ ");\n" = bindLine c args name := by
  have start : "\tClassDB::bind_method(D_METHOD(\"" = "\tClassDB::bind_method(D_METHOD(" ++ "\"" := by simp
  have list : quotedNames (name :: names) =
      "\"" ++ name ++ "\"" ++ afterCommas (names.map fun a => "\"" ++ a ++ "\"") :=
    (append_afterCommas ..).symm
  unfold bindLine
  rw [h, Option.getD_some, list]
  simp only [start, String.append_assoc]

theorem methodBinding_eq (h : name ∈ d.pages.own.draft.methodArgs.keys) : methodBinding name d =
    .ok (if Text.startsWith name "_" then ""
      else bindLine d.pages.own.className d.pages.own.draft.methodArgs name) d := by
  unfold methodBinding
  by_cases hn : Text.startsWith name "_" = true
  · rw [if_pos hn, if_pos hn]
    rfl
  · obtain ⟨args, found⟩ := Table.exists_of_mem_keys h
    rw [if_neg hn, if_neg hn, Read.bind_ok (rfl : draft d = .ok d.pages.own.draft d), found, ← bindLine_eq found]
    rfl

theorem mapM_methodBinding_eq (l : List String) (h : ∀ n ∈ l, n ∈ d.pages.own.draft.methodArgs.keys) :
    ∃ lines, l.mapM methodBinding d = .ok lines d ∧ String.join lines = String.join
      ((l.filter fun n => !Text.startsWith n "_").map
        (bindLine d.pages.own.className d.pages.own.draft.methodArgs)) := by
  induction l with
  | nil => exact ⟨[], rfl, rfl⟩
  | cons n l ih =>
    obtain ⟨lines, eq, joined⟩ := ih fun n hn => h n (.tail _ hn)
    have first := methodBinding_eq (h n mem_cons_self)
    refine ⟨_, by rw [mapM_cons, Read.bind_ok first, Read.bind_ok eq]; rfl, ?_⟩
    rw [String.join_cons, joined]
    by_cases hn : Text.startsWith n "_" = true <;> simp [hn]

theorem accessorOf_put (t : Table String) (name : String) {method : String} (hm : method ≠ "") (member : String) :
    accessorOf (t.put name method) member = if name = member then some method else accessorOf t member := by
  unfold accessorOf
  rw [Table.find?_put]
  by_cases h : name = member
  · rw [if_pos h, if_pos h]
    exact if_neg (by simpa using hm)
  · rw [if_neg h, if_neg h]

/-- Accessors are supplied where members have none. -/
structure Supplies (z : Settings) (d d' : Desk (Pages State)) : Prop where
  gives : Gives z [] d d'
  markers : d'.pages.own.draft.markers = d.pages.own.draft.markers
  signals : d'.pages.own.draft.signals = d.pages.own.draft.signals
  setters : ∀ m x, accessorOf d.pages.own.draft.setters m = some x → accessorOf d'.pages.own.draft.setters m = some x
  getters : ∀ m x, accessorOf d.pages.own.draft.getters m = some x → accessorOf d'.pages.own.draft.getters m = some x

theorem Supplies.refl (d : Desk (Pages State)) : Supplies z d d := ⟨.refl d, rfl, rfl, fun _ _ h => h, fun _ _ h => h⟩

theorem Supplies.trans (h : Supplies z d d') (h' : Supplies z d' d'') : Supplies z d d'' :=
  ⟨h.gives.trans h'.gives, h'.markers.trans h.markers, h'.signals.trans h.signals,
    fun m x hx => h'.setters m x (h.setters m x hx), fun m x hx => h'.getters m x (h.getters m x hx)⟩

theorem PropertyLine.supplied {a : BoundMarker} {text : String} (h : PropertyLine z d.pages.own.draft.ledger a text)
    (more : Supplies z d d') : PropertyLine z d'.pages.own.draft.ledger a text := by
  cases h with
  | group h => exact .group h
  | signal h hs => exact .signal h hs
  | property type h hs hg => exact .property type h (more.setters _ _ hs) (more.getters _ _ hg)

/-- A method that is put down for a member without one. -/
theorem accessorOf_added {t t' : Table String} {method : String} (added : t' = t.put name method) (named : method ≠ "")
    (none : accessorOf t name = none) :
    accessorOf t' name = some method ∧ ∀ m x, accessorOf t m = some x → accessorOf t' m = some x := by
  rw [added]
  refine ⟨by rw [accessorOf_put _ _ named, if_pos rfl], fun m x hx => ?_⟩
  rw [accessorOf_put _ _ named, if_neg]
  · exact hx
  · rintro rfl
    cases none.symm.trans hx

theorem defaultSetter_supplies (h : Known d name) (none : accessorOf d.pages.own.draft.setters name = none) :
    Runs (defaultSetter z name) d fun _ d' => Supplies z d d' ∧
      accessorOf d'.pages.own.draft.setters name = some (setterName name) ∧
      d'.pages.own.draft.getters = d.pages.own.draft.getters := by
  refine (setter_runs h "value" _ false).mono fun _ d' ⟨gives, m, ledger⟩ => ?_
  obtain ⟨found, others⟩ := accessorOf_added (congrArg (·.setters) ledger : d'.pages.own.draft.setters = _)
    (by simp [setterName]) none
  have getters : d'.pages.own.draft.getters = d.pages.own.draft.getters := congrArg (·.getters) ledger
  exact ⟨⟨gives, congrArg (·.markers) ledger, congrArg (·.signals) ledger, others,
    fun m x hx => by rwa [getters]⟩, found, getters⟩

theorem defaultGetter_supplies (h : Known d name) (none : accessorOf d.pages.own.draft.getters name = none) :
    Runs (defaultGetter z name) d fun _ d' => Supplies z d d' ∧
      accessorOf d'.pages.own.draft.getters name = some (getterName name) := by
  refine (getter_runs h _ false).mono fun _ d' ⟨gives, m, ledger⟩ => ?_
  obtain ⟨found, others⟩ := accessorOf_added (congrArg (·.getters) ledger : d'.pages.own.draft.getters = _)
    (by simp [getterName]) none
  have setters : d'.pages.own.draft.setters = d.pages.own.draft.setters := congrArg (·.setters) ledger
  exact ⟨⟨gives, congrArg (·.markers) ledger, congrArg (·.signals) ledger,
    fun m x hx => by rwa [setters], others⟩, found⟩

theorem markerBinding_runs {a : BoundMarker} (h : ∀ m, a.member = some m → m ≠ "" → Known d m) :
    Runs (markerBinding z a) d fun text d' => PropertyLine z d'.pages.own.draft.ledger a text ∧ Supplies z d d' := by
  unfold markerBinding
  cases ha : a.member with
  | none => exact ⟨.group (.inl ha), .refl d⟩
  | some member =>
    refine .ite (fun hm => ⟨.group (.inr ?_), .refl d⟩) fun hm => ?_
    · rw [ha, String.isEmpty_iff.mp hm]
    have known := h member ha (by simpa using hm)
    obtain ⟨type, ht⟩ := memberType_eq known
    refine .bind_eq ht <| .ite (fun hs => ⟨.signal ha hs, .refl d⟩) fun _ => .bind_eq rfl ?_
    -- once the property is written by a method, it remains to be read by one
    have last {d1 : Desk (Pages State)} {setter : String} (h1 : Supplies z d d1)
        (hs : accessorOf d1.pages.own.draft.setters member = some setter)
        (same : d1.pages.own.draft.getters = d.pages.own.draft.getters) : Runs (do
          if (accessorOf d.pages.own.draft.getters member).isNone then defaultGetter z member
          return "\tClassDB::add_property(get_class_static(), PropertyInfo(" ++ variantType z (type.getD "") ++
            ", \"" ++ member ++ "\"" ++ hintText a ++ "), \"" ++ setter ++ "\", \"" ++
            (accessorOf d.pages.own.draft.getters member).getD (getterName member) ++ "\");\n") d1 fun text d2 =>
          PropertyLine z d2.pages.own.draft.ledger a text ∧ Supplies z d d2 := by
      cases hg : accessorOf d.pages.own.draft.getters member with
      | none =>
        refine (defaultGetter_supplies (h1.gives.known known) (same ▸ hg)).bind fun _ d2 ⟨h2, found⟩ =>
          ⟨?_, h1.trans h2⟩
        exact .property (type.getD "") ha (h2.setters _ _ hs) found
      | some getter => exact ⟨.property (type.getD "") ha hs ((congrArg (accessorOf · member) same).trans hg), h1⟩
    cases hs : accessorOf d.pages.own.draft.setters member with
    | none => exact (defaultSetter_supplies known hs).bind fun _ d1 ⟨h1, found, same⟩ => last h1 found same
    | some setter => exact last (.refl d) hs rfl

/-- The members of all annotations are known. -/
def MarkersKnown (d : Desk (Pages State)) : Prop :=
  ∀ a ∈ d.pages.own.draft.markers, ∀ m, a.member = some m → m ≠ "" → Known d m

theorem bindings_runs (agrees : Agrees d d.pages.own.className) (known : MarkersKnown d) :
    Runs (bindings z) d fun code d' =>
      Gives z [] d d' ∧ BindCode z d.pages.own.className d'.pages.own.draft.ledger
        (d'.classes.enumNames d.pages.own.className) code := by
  refine .bind_eq rfl <| (Yields.mapM (R := Supplies z)
    (P := fun d a text => PropertyLine z d.pages.own.draft.ledger a text)
    .refl .trans .supplied d _ (fun a ha d' h' => ?_) d (.refl d)).bind
    fun properties d1 ⟨lines, h1⟩ => .bind_eq rfl <| .bind_eq rfl ?_
  · exact markerBinding_runs fun m hm hne => h'.gives.known (known a ha m hm hne)
  obtain ⟨xs, made, said⟩ := h1.gives
  have names : (d1.classes.info d1.pages.own.className).methods.keys = d1.pages.own.draft.methodArgs.keys :=
    made.agrees _ (made.className ▸ agrees)
  obtain ⟨texts, eq, joined⟩ := mapM_methodBinding_eq d1.pages.own.draft.methodArgs.keys fun _ h => h
  rw [← names] at eq
  refine .bind_eq eq ⟨⟨xs, made, said⟩, ?_⟩
  rw [joined, made.className, signalBinding_eq]
  rw [← h1.markers] at lines
  exact .lines lines

/-! ## The end of a class -/

/-- A class of which nothing is bound. -/
def ClassDraft.Bare (c : ClassDraft) : Prop := c.markers = [] ∧ c.methodArgs.keys = [] ∧ c.signals.keys = []

/-- The entries that are made at the end of a class: the last one binds its members. -/
def Closes (z : Settings) (c : String) (b : ClassDraft) (enumerators : List String) (xs : List Entry) : Prop :=
  (b.enterAll xs).Bare ∨ ∃ before x code, xs = before ++ [x] ∧
    x.source = .method { name := "_bind_methods", code := code, static := true } ∧
    BindCode z c (b.enterAll before) (enumeratorsAfter enumerators before) code

theorem Made.onready (h : Made z xs d d') (ht : told xs = []) (hd : d.pages.own.draft.onready = []) :
    d'.pages.own.draft.onready = [] := by
  have none (x : Entry) (hx : x ∈ ownedBy d.pages.own.className xs) : x.waits = [] := by
    have hx := (mem_filter.mp hx).1
    have unparsed := filter_eq_nil_iff.mp (map_eq_nil_iff.mp ht) x hx
    cases (h.sound x hx).1 with
    | property => exact absurd rfl unparsed
    | _ => rfl
  have waits := h.waits d.pages.own.className
  rw [flatMap_eq_nil_iff.mpr none, append_nil] at waits
  have left := (append_eq_nil_iff.mp (waits.symm.trans hd)).2
  rwa [← h.className] at left

/-- What becomes of a class at its end. -/
def Ends (z : Settings) (d d' : Desk (Pages State)) : Prop :=
  ∃ xs, Made z xs d d' ∧ told xs = [] ∧ d'.pages.own.draft.onready = [] ∧
    Closes z d.pages.own.className d.pages.own.draft.ledger (d.classes.enumNames d.pages.own.className) xs

theorem bound_runs (h : Made z xs d d') (said : told xs = []) (none : d'.pages.own.draft.onready = [])
    (agrees : Agrees d d.pages.own.className) (known : MarkersKnown d') : Runs (do
      let c ← draft
      if !c.markers.isEmpty || !(← classInfo).methods.isEmpty || !c.signals.isEmpty then
        let code ← bindings z
        redraft fun c => c.toPublic.add "\n"
        put "\n"
        method z { name := "_bind_methods", code := code, static := true }) d' fun _ d'' => Ends z d d'' := by
  have agrees' : Agrees d' d'.pages.own.className := h.agrees _ (h.className ▸ agrees)
  refine .bind_eq rfl <| .bind_eq rfl <| .ite (fun _ => ?_) fun bare => ?_
  · refine (bindings_runs agrees' known).bind fun code d1 ⟨⟨ys, h1, said1⟩, bind⟩ => ?_
    refine (redraft_still d1 (f := fun c => c.toPublic.add "\n") fun c => c.books_toPublic).bind fun _ d2 h2 => ?_
    refine (putLine_still d2).bind fun _ d3 h3 => ?_
    refine (generated_runs (.bindings code) (by simp) d3).mono fun _ d4 ⟨x, source, unparsed, h4⟩ => ?_
    have rest : Made z (ys ++ [x]) d' d4 := h1.trans ((h2.trans h3).made.trans h4)
    have saidRest : told (ys ++ [x]) = [] := by
      rw [told_append, said1]
      simp [told, unparsed]
    refine ⟨_, h.trans rest, ?_, rest.onready saidRest none, .inr ⟨xs ++ ys, x, code, (append_assoc ..).symm,
      source, ?_⟩⟩
    · rw [told_append, said, saidRest]
      rfl
    · rw [h.className] at bind
      rw [← (h.trans h1).draft, ← (h.trans h1).enumerators]
      exact bind
  · refine ⟨xs, h, said, none, .inl ?_⟩
    simp only [Bool.or_eq_true, Bool.not_eq_true', not_or, Bool.not_eq_false] at bare
    obtain ⟨⟨markers, methods⟩, signals⟩ := bare
    have empty {α : Type} {t : Table α} (ht : t.isEmpty = true) : t.keys = [] := by
      rw [Table.keys, isEmpty_iff.mp ht]
      rfl
    rw [← h.draft]
    exact ⟨isEmpty_iff.mp markers, agrees'.symm.trans (empty methods), empty signals⟩

theorem addLastMethods_runs (agrees : Agrees d d.pages.own.className) (known : MarkersKnown d) :
    Runs (addLastMethods z) d fun _ d' => Ends z d d' := by
  refine .bind_eq rfl <| .ite (fun _ => ?_) fun none => ?_
  · refine (method_runs (b := false) (fun _ => .ready) (fun _ h => absurd rfl h) d (fun _ => .inl rfl) (fun _ => rfl)
      fun _ => Subset.refl _).bind fun _ d1 ⟨x, source, unparsed, h1, ready⟩ => ?_
    refine bound_runs h1 (by simp [told, unparsed]) (ready rfl) agrees fun a ha m hm hne =>
      h1.known (known a ?_ m hm hne)
    have entered : d1.pages.own.draft.ledger = d.pages.own.draft.ledger.enter x.source := h1.draft
    rw [source] at entered
    exact congrArg (·.markers) entered ▸ ha
  · exact bound_runs (Still.refl d).made rfl (by simpa using none) agrees known

theorem Ends.still (h : Ends z d d') (h' : Still d' d'') : Ends z d d'' := by
  obtain ⟨xs, made, said, spent, closes⟩ := h
  have rest : Made z [] d' d'' := h'.made
  exact ⟨xs ++ [], made.trans rest, by rwa [append_nil], rest.onready rfl spent, by rwa [append_nil]⟩

/-- **The end of a class**: no assignment waits any more, and all members are bound. -/
theorem endClass_runs (agrees : Agrees d d.pages.own.className) (known : MarkersKnown d) :
    Runs (endClass z) d fun _ d' => Ends z d d' := by
  refine (addLastMethods_runs agrees known).bind fun _ d1 ended => .bind_eq rfl <| .bind_eq rfl ?_
  exact ended.still (.silent rfl rfl (.of_drafts rfl rfl))

end CPlusPlus

end GdScribe
