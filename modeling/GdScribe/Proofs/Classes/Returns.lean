import GdScribe.Proofs.Classes.Tables
import GdScribe.Proofs.Expression.Reading

/-!
# Return types that are known in a class

The first pass puts down what the methods of a class return. The second pass starts from what the first
one left, so a call finds the type of a method that is defined further down as well.

* `Passes`: the states that a run passes.
* `StartsCall`: what comes is an initial value that is a call by name, and nothing more.

Principal result: `CSharp.explicit_returns_known`.
-/

namespace GdScribe

open List

variable {σ : Type}

/-! ## Methods in the tables -/

variable {history : List Note} {c g : String}

theorem mem_entriesOf {e : ClassEntry} : e ∈ entriesOf c history ↔ .recorded c e ∈ history := by
  unfold entriesOf
  rw [mem_filterMap]
  constructor
  · rintro ⟨n, hn, he⟩
    split at he
    · split at he
      · cases he
        subst c
        exact mem_reverse.mp hn
      · cases he
    · cases he
  · exact fun h => ⟨_, mem_reverse.mpr h, if_pos rfl⟩

theorem ClassInfo.methods_putAll {u : Ty} (es : List ClassEntry) (i : ClassInfo)
    (all : ∀ v, .method g v ∈ es → v = u) (told : i.methods.find? g = some u ∨ .method g u ∈ es) :
    (i.putAll es).methods.find? g = some u := by
  induction es generalizing i with
  | nil => exact told.resolve_right nofun
  | cons e es ih =>
    refine ih (e.put i) (fun v hv => all v (.tail _ hv)) ?_
    cases e with
    | method n v =>
      by_cases same : n = g
      · obtain rfl : v = u := all v (by rw [same]; exact .head _)
        exact .inl (by rw [ClassEntry.put, Table.find?_put, if_pos same])
      · rcases told with told | told
        · exact .inl (by rw [ClassEntry.put, Table.find?_put, if_neg same, told])
        · exact .inr ((mem_cons.mp told).resolve_left fun h => same (by cases h; rfl))
    | member _ _ | enumerators _ _ => exact told.imp_right fun h => (mem_cons.mp h).resolve_left (by simp)

theorem TablesHold.method_find {start classes : ClassTable}
    (h : TablesHold start classes history) {u : Ty}
    (all : ∀ v, .recorded c (.method g v) ∈ history → v = u)
    (told : (start.info c).methods.find? g = some u ∨ .recorded c (.method g u) ∈ history) :
    (classes.info c).methods.find? g = some u := by
  obtain ⟨base, hb⟩ := h c
  rw [hb]
  exact ClassInfo.methods_putAll _ _ (fun v hv => all v (mem_entriesOf.mp hv)) (told.imp_right mem_entriesOf.mpr)

/-- A state that a run passes: it has all properties that the first state has and every move keeps. -/
def Passes (w : Writer σ) (text : String) (desk : Desk σ) (s : Reader σ) : Prop :=
  ∃ first rest, (scan (text ++ "\n")).lexemes = first :: rest ∧
    ∀ I : Reader σ → Prop, Read.Invariant I w →
      I (startOf text desk first rest) → I s

namespace Read

open Phrase

variable {wr : Writer σ} {r : Rules σ} {a b : View σ} {g T x : String}

/-! ## A call as an initial value -/

/-- The words in view are those of an initial value that is the call of a name, and nothing more: after
its arguments comes a word that does not go on an expression. -/
def StartsCall (wr : Writer σ) (r : Rules σ) (a : View σ) (g : String) : Prop :=
  IsName g ∧ ∃ w ws b, a.words = mark '=' :: textWord g :: mark '(' :: w :: ws ∧
    Leads (callArguments wr r) { a with words := w :: ws } b ∧
    a.inParens = false ∧ b.inParens = false ∧ ∃ v vs, b.words = v :: vs ∧ EndsExpression v

/-- The type of a property by the type that a method returns. -/
def resultType (T : String) : String := ((unmarked (some T)).orElse (some "Variant")).getD ""

theorem resultType_eq (known : T ≠ "") (plain : Text.endsWith T "singleton" = false) : resultType T = T := by
  unfold resultType unmarked
  rw [if_neg (by simpa [Ty.endsWith] using plain), Ty.orElse, if_pos (by simpa [Ty.known] using known)]
  rfl

variable {s : Reader σ}

/-- The type of a call is that of the method of the class, if it is no class. -/
theorem callType_own (known : T ≠ "") (method : s.ownClass.methods.find? g = some (some T))
    (notClass : s.desk.classes.contains g = false) : callType s g none = some T := by
  have type : s.ownClass.methods.ty g = some T := by rw [Table.ty, method]; rfl
  unfold callType
  dsimp only
  rw [notClass, type, Ty.orElse, if_neg nofun, Ty.orElse,
    if_pos (by simpa [Ty.known] using known)]

variable {n : Nat} {s' : Reader σ}

/-- A declaration with a call for its initial value has the type of the call. -/
theorem declaration_of_call (start : StartsCall wr (rules wr (n + 1)) a g)
    (hx : x ≠ "") (type : ∀ s : Reader σ, s.desk.classes = a.table → s.classes = a.classes →
      callType s g none = some T) :
    ∃ b, Leads (declaration wr (rules wr (n + 1)) x) a b fun d => d.name = x ∧ d.type = resultType T := by
  obtain ⟨hg, w, ws, b, hwords, hargs, ha, hb, v, vs, hv, ends⟩ := start
  have inner : Leads (call wr (rules wr (n + 1)) g none) { a with words := w :: ws } b fun y => y.1 = some T := by
    refine Leads.get_bind fun s hs => ?_
    have t : callType s g none = some T := type s (congrArg View.table hs) (congrArg View.classes hs)
    rw [t]
    refine hargs.bind fun args _ => ?_
    have nothing : Leads ((rules wr (n + 1)).follow (some T)) b b fun y => y.1 = some T := by
      obtain ⟨h1, h2, h3⟩ : v.2 ≠ "." ∧ v.2 ≠ "(" ∧ v.2 ≠ "[" := by
        simpa [EndsValue] using ends.1.1.1.1
      exact .miss hv h1 (.miss hv h2 (.miss hv h3 (.pure rfl)))
    exact nothing.bind fun y hy => .pure hy
  have quiet : QuietAt wr { a with words := textWord g :: mark '(' :: w :: ws } := fun h => by
    rw [show a.inParens = true from h] at ha
    cases ha
  have value : Leads (value wr (rules wr (n + 1)))
      { a with words := textWord g :: mark '(' :: w :: ws } b fun y => y.1 = some T :=
    value_text quiet rfl hg (.hit rfl inner)
  have expression := expression_of_value rfl (by decide) value hv hb ends
  refine ⟨b, ?_⟩
  have unnamed : Leads (nameOr x : ReadM σ String) a a (· = x) := by
    exact .ite_neg (by simpa using hx) (.pure rfl)
  refine unnamed.bindEq ?_
  refine (Leads.expect_miss hwords (by decide)).bindEq ?_
  refine (Leads.kindIs hwords _).bindEq ((Leads.kindIs hwords _).bindEq ?_)
  refine Leads.bindEq (.pure rfl) (.hit hwords ?_)
  refine expression.bind fun y hy => .pure ⟨rfl, ?_⟩
  obtain ⟨z, hz, rfl⟩ := hy
  rw [hz]
  rfl

theorem Keeps.ok {C : Course σ} {α : Type} {y : ReadM σ α} (h : Keeps C y) {z : α}
    (hy : y s = .ok z s') : C.ok s s' := by
  have kept := h s
  rwa [hy] at kept

theorem asked_invariant (w : Writer σ) (q : Request) : Invariant (fun s : Reader σ => q ∈ s.asked) w where
  next s h := by rwa [next_asked]
  asked _ _ h := .tail _ h
  serve s q h := by rw [endState_atDesk]; exact h
  takePage s h := by rw [endState_atDesk]; exact h
  note _ _ _ h := h
  learn _ _ _ h := h
  use _ _ h := h
  record _ _ h := h
  enter _ _ _ _ h := h

theorem writeProperty_asks {p : Property} {accessible : Bool}
    (h : writeProperty wr (rules wr n) p accessible s = .ok () s') : ∃ f, .property p f ∈ s'.asked := by
  have L := (asked_invariant wr (.property p true)).toOuter.inClass.laws
  obtain ⟨colon, s1, -, h⟩ := bind_eq_ok h
  split at h
  · obtain ⟨-, s2, -, h⟩ := bind_eq_ok h
    obtain ⟨-, s3, -, h⟩ := bind_eq_ok h
    refine ⟨true, ?_⟩
    rw [resuming, get_bind_apply] at h
    obtain ⟨_, s4, h4, h⟩ := bind_eq_ok h
    obtain ⟨_, s5, h5, h4⟩ := bind_eq_ok h4
    have asked : .property p true ∈ s5.asked := by
      obtain ⟨_, s6, h6, h5⟩ := bind_eq_ok h5
      obtain ⟨_, s7, h7, h5⟩ := bind_eq_ok h5
      obtain ⟨d, -, rfl⟩ := ask_eq_ok h7
      cases h5
      exact .head _
    have rest := (RulesKeep.rules L.toLaws n).accessors L.toMemberLaws.logic (L.toLaws.logic.property_refl p) 2
    obtain ⟨found, s8, h8, h4⟩ := bind_eq_ok h4
    obtain ⟨d, -, rfl⟩ := ask_eq_ok h4
    cases h
    exact .tail _ (rest.ok h8 asked)
  · obtain ⟨_, s2, h2, h⟩ := bind_eq_ok h
    obtain ⟨d, -, rfl⟩ := ask_eq_ok h2
    obtain ⟨d', -, rfl⟩ := ask_eq_ok h
    exact ⟨false, .tail _ mem_cons_self⟩

/-- What is put down and asked for when a property with a call for its initial value is read. -/
theorem declareProperty_of_call {flag : PropertyFlag} (known : T ≠ "") (hx : x ≠ "")
    (start : StartsCall wr (rules wr (n + 1)) s.view g) (method : s.ownClass.methods.find? g = some (some T))
    (notClass : s.desk.classes.contains g = false) (h : declareProperty wr (rules wr (n + 1)) x flag s = .ok () s') :
    .recorded s.className (.member x (some (resultType T))) ∈ s'.history ∧
      ∃ p f, .property p f ∈ s'.asked ∧ p.name = x ∧ p.type = resultType T := by
  have L : ((memberCourse σ fun _ _ => True).MemberLaws wr) :=
    memberCourse_memberLaws (fun _ _ _ => trivial) (fun _ _ => trivial) wr
  have H : RulesKeep (memberCourse σ fun _ _ => True) (rules wr (n + 1)) := .rules L.toLaws _
  obtain ⟨b, leads⟩ := declaration_of_call start hx fun u table classes => by
    refine callType_own known ?_ (table ▸ notClass)
    rw [← method, Reader.ownClass, table, className_eq classes]
    rfl
  obtain ⟨d, s1, declared, h⟩ := bind_eq_ok h
  obtain ⟨d', s₁', declared', ⟨name, type⟩, -⟩ := leads s rfl
  rw [declared] at declared'
  cases declared'
  have classes : s1.className = s.className := className_eq ((H.declaration L.toLaws.logic x).ok declared).classes
  obtain ⟨_, s2, recorded, h⟩ := bind_eq_ok h
  cases recorded
  rw [name, type] at h
  refine ⟨?_, ?_⟩
  · obtain ⟨ns, hns, -⟩ := ((H.writeProperty L.logic (L.logic.property_refl _) _).ok h).noted
    rw [hns, ← classes]
    exact mem_append_right _ mem_cons_self
  · obtain ⟨f, asked⟩ := writeProperty_asks h
    exact ⟨_, f, asked, rfl, rfl⟩

/-- The head of a method: its name, its parameters, and the type after the arrow. -/
def methodHead (r : Rules σ) : ReadM σ (String × ParamDefinitions × Ty) := do
  let name ← consume
  let _ ← expect "("
  let d ← paramDefinitions r ")"
  learnAll d.params.entries
  let declared ← typeAfter "->"
  return (name, d, declared)

theorem method_records {r : Rules σ} {static : Bool} (h : method wr r static s = .ok () s') :
    ∃ name d declared s1, methodHead r s = .ok (name, d, declared) s1 ∧
      (declared.known = true → .recorded s'.className (.method name declared) ∈ s'.history) := by
  obtain ⟨name, s1, h1, h⟩ := bind_eq_ok h
  obtain ⟨b, s2, h2, h⟩ := bind_eq_ok h
  obtain ⟨d, s3, h3, h⟩ := bind_eq_ok h
  obtain ⟨_, s4, h4, h⟩ := bind_eq_ok h
  obtain ⟨declared, s5, h5, h⟩ := bind_eq_ok h
  refine ⟨name, d, declared, s5, ?_, fun known => ?_⟩
  · unfold methodHead
    rw [bind_ok h1, bind_ok h2, bind_ok h3, bind_ok h4, bind_ok h5]
    rfl
  · obtain ⟨b', s6, h6, h⟩ := bind_eq_ok h
    obtain ⟨⟨t, code⟩, s7, h7, h⟩ := bind_eq_ok h
    obtain ⟨_, s8, recorded, h⟩ := bind_eq_ok h
    cases recorded
    obtain ⟨desk, -, rfl⟩ := ask_eq_ok h
    have type : declared.orElse t = declared := if_pos known
    rw [type]
    exact .head _

end Read

namespace CSharp

open Read Target Phrase

/-- A property is written with the spelling of a type. -/
def DeclaredWith (z : Settings) (q : Request) (name type : String) : Prop :=
  ∃ modifier rest, serve z q = do
    let exposed ← exposure name false
    put (exposed ++ " " ++ modifier ++ (← typeText z (some type)) ++ " " ++ pascal name)
    rest

/-- **Return types are known everywhere in a class after the first pass.** In every script, if the first pass
puts down the type `T` and no other for the method `g` of the class `C`, and the second pass has put down no
other so far: a property of `C` that the second pass reads, before or after the method, and whose initial
value is the call of `g` and nothing more, is put down with that type and written with its spelling. Only the
mark of singletons at the end of `T` is dropped. A method with a type in its head is put down with it
(`method_records`). -/
theorem explicit_returns_known (z : Settings) (name text : String) (desk : Desk Unit)
    (desk' : Desk (Pages State)) {C g T x : String} {n : Nat} {flag : PropertyFlag}
    {s s' : Reader (Pages State)}
    (shared : desk'.classes = (run Collect.writer name text desk).desk.classes) (known : T ≠ "") (hx : x ≠ "")
    (defined : .recorded C (.method g (some T)) ∈ (run Collect.writer name text desk).history)
    (first : ∀ u, .recorded C (.method g u) ∈ (run Collect.writer name text desk).history → u = some T)
    (passed : Passes (writer z) text desk' s) (own : s.className = C)
    (second : ∀ u, .recorded C (.method g u) ∈ s.history → u = some T)
    (notClass : s.desk.classes.contains g = false)
    (start : StartsCall (writer z) (rules (writer z) (n + 1)) s.view g)
    (done : declareProperty (writer z) (rules (writer z) (n + 1)) x flag s = .ok () s') :
    .recorded C (.member x (some (resultType T))) ∈ s'.history ∧
      (∃ p f, .property p f ∈ s'.asked ∧ DeclaredWith z (.property p f) x (resultType T)) ∧
      (Text.endsWith T "singleton" = false → resultType T = T) := by
  obtain ⟨_, _, _, kept⟩ := passed
  have collected :=
    (membersFit_of_discreet (w := Collect.writer) Collect.serve_discreet (.pure _) name text desk).tables
  have before : (desk'.classes.info C).methods.find? g = some (some T) :=
    shared ▸ collected.method_find first (.inr defined)
  have tables : TablesHold desk'.classes s.desk.classes s.history :=
    kept _ (table_invariant (serve_discreet z) Page.takePage_discreet desk'.classes) rfl ▸ tablesHold_tableAfter _ _
  have method : s.ownClass.methods.find? g = some (some T) := by
    rw [Reader.ownClass, own]
    exact tables.method_find second (.inl before)
  obtain ⟨recorded, p, f, asked, rfl, type⟩ := declareProperty_of_call known hx start method notClass done
  refine ⟨own ▸ recorded, ⟨p, f, asked, ?_⟩, resultType_eq known⟩
  rw [← type]
  exact ⟨_, _, rfl⟩

/-- A script whose first line calls the method that comes after it. -/
def callingScript : String := "var x = g()\nfunc g() -> String:\n\treturn h()"

/-- What the first pass makes of it. -/
@[irreducible] def callingClasses : ClassTable :=
  (run Collect.writer "S" callingScript ⟨{}, #[], ()⟩).desk.classes

theorem callingClasses_eq : callingClasses = (run Collect.writer "S" callingScript ⟨{}, #[], ()⟩).desk.classes := by
  unfold callingClasses
  rfl

/-- The state of the second pass in front of the initial value, after the class has started and two words
were passed. -/
def beforeCall (first : Lexeme) (rest : List Lexeme) : Reader (Pages State) :=
  let s : Reader (Pages State) := startOf callingScript ⟨callingClasses, #[], start⟩ first rest
  Reader.next <| Reader.next { s with
      history := .script "S" "Object" :: s.history
      classes := "S" :: s.classes
      desk := { s.desk with classes := s.desk.classes.declare "S" "Object" } }

/-- What is decided of that state. -/
structure ShowsCall (s : Reader (Pages State)) : Prop where
  words : s.view.words.take 5 = [mark '=', textWord "g", mark '(', mark ')', (.lineEnd, "0")]
  history : s.history = [.script "S" "Object"]
  className : s.className = "S"
  notClass : s.desk.classes.contains "g" = false
  outside : s.inParens = false
  done : (declareProperty (writer {}) (rules (writer {}) 3) "x" .plain s matches .ok _ _) = true

instance (s : Reader (Pages State)) : Decidable (ShowsCall s) :=
  decidable_of_iff (_ ∧ _ ∧ _ ∧ _ ∧ _ ∧ _) ⟨fun h => ⟨h.1, h.2.1, h.2.2.1, h.2.2.2.1, h.2.2.2.2.1, h.2.2.2.2.2⟩,
      fun h => ⟨h.1, h.2, h.3, h.4, h.5, h.6⟩⟩

/-- The property in the first line gets the type that the method below it has. -/
theorem explicit_returns_known_below : ∃ s s', Passes (writer {}) callingScript ⟨callingClasses, #[], start⟩ s ∧
      declareProperty (writer {}) (rules (writer {}) 3) "x" .plain s = .ok () s' ∧
      .recorded "S" (.member "x" (some "String")) ∈ s'.history := by
  have collected : (run Collect.writer "S" callingScript ⟨{}, #[], ()⟩).history.filter (!·.isPlain) =
      [.recorded "S" (.method "g" (some "String")), .recorded "S" (.member "x" (some "Variant")),
        .script "S" "Object"] := by
    decide +kernel
  have only (u : Ty) (hu : .recorded "S" (.method "g" u) ∈
      (run Collect.writer "S" callingScript ⟨{}, #[], ()⟩).history) : u = some "String" := by
    have found := collected ▸ mem_filter.mpr ⟨hu, rfl⟩
    simpa using found
  have seen : ((scan (callingScript ++ "\n")).lexemes.head?.any fun first =>
      decide (ShowsCall (beforeCall first (scan (callingScript ++ "\n")).lexemes.tail))) = true := by decide +kernel
  cases lexed : (scan (callingScript ++ "\n")).lexemes with
  | nil =>
    rw [lexed] at seen
    cases seen
  | cons first rest =>
    simp only [lexed, head?_cons, Option.any_some, tail_cons, decide_eq_true_eq] at seen
    have passes : Passes (writer {}) callingScript ⟨callingClasses, #[], start⟩ (beforeCall first rest) := by
      exact ⟨first, rest, lexed, fun I H h => H.next _ (H.next _ (H.enter _ "S" "Object" true h))⟩
    obtain ⟨words, history, own, notClass, outside, ends⟩ := seen
    generalize beforeCall first rest = s at *
    have starts : StartsCall (writer {}) (rules (writer {}) 3) s.view "g" := by
      obtain ⟨rest, h⟩ : ∃ rest, s.view.words =
          mark '=' :: textWord "g" :: mark '(' :: mark ')' :: (.lineEnd, "0") :: rest :=
        ⟨_, (take_append_drop 5 _).symm.trans (by rw [words]; rfl)⟩
      have none := @callArguments_of_items _ Empty _ (rules (writer {}) 3) s.view (fun _ => [])
        (·.elim) (.lineEnd, "0") rest [] (·.elim) (quiet {} _ _)
      exact ⟨by decide, mark ')', _, _, h, none.mono fun _ _ => trivial, outside, outside, _, _, rfl, by decide⟩
    cases done : declareProperty (writer {}) (rules (writer {}) 3) "x" .plain s with
    | error e s' => rw [done] at ends; cases ends
    | ok a s' =>
      obtain ⟨recorded, -, type⟩ := explicit_returns_known {} "S" callingScript ⟨{}, #[], ()⟩
        ⟨callingClasses, #[], start⟩ callingClasses_eq (by decide) (by decide)
        (mem_of_mem_filter (collected ▸ mem_cons_self)) only passes own
        (fun u hu => by simp [history] at hu) notClass starts done
      rw [type (by decide)] at recorded
      exact ⟨s, s', passes, done, recorded⟩

/-- A type that ends like the mark of singletons loses its end. -/
theorem explicit_return_cut :
    let text := "func g() -> Xsingleton:\n\treturn h()\nvar x = g()"
    let collected := run Collect.writer "S" text ⟨{}, #[], ()⟩
    let written := run (writer {}) "S" text ⟨collected.desk.classes, #[], start⟩
    (collected.desk.classes.info "S").methods.ty "g" = some "Xsingleton" ∧
      (written.desk.classes.info "S").members.ty "x" = some "X" ∧
      Text.occursIn "public X X = G();" written.desk.pages.page = true := by
  decide +kernel

end CSharp

end GdScribe
