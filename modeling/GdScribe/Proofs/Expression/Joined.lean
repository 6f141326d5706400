import GdScribe.Proofs.Expression.Operand

/-!
# Operands joined by `and` and `or`

What a reader makes of an operand, and when two operands joined by `and` or `or` are read and written
as the two side by side.

* `CSharp.ReadsOperand`: a rule reads an operand, up to the links that it leaves.
* `CSharp.Composes`: two operands are read and written side by side.

Main statement: `CSharp.composes_iff`.
-/

namespace GdScribe

open List
open Operand (Value Links Arguments Spelling)

namespace Read

variable {σ : Type} {a : View σ} {w : Word} {ws : List Word}

theorem dottedRest_single {k : TokenKind} {v : String} (h : a.words = (k, v) :: ws) (hv : v ≠ ".")
    (first : String) : Leads (dottedRest first) a a (· = first) :=
  Leads.roundsLeft.bindEq (.miss h hv (.pure rfl))

theorem type_single {t : String} (h : a.words = textWord t :: w :: ws) (ht : t ≠ "void")
    (hw : EndsValue w) : Leads type a { a with words := w :: ws } (· = some t) := by
  simp only [EndsValue, mem_cons, not_mem_nil, or_false, not_or] at hw
  refine Leads.roundsLeft.bindEq ?_
  refine (Leads.consume h).bindEq (.ite_neg ht ?_)
  refine (dottedRest_single rfl hw.1 t).bindEq ?_
  by_cases ha : t = "Array"
  · exact .ite_pos ha (.miss rfl hw.2.2 (.pure (by rw [ha])))
  · exact .ite_neg ha (.pure rfl)

end Read

namespace CSharp

open Target Read Phrase

/-! ## Writing tests -/

/-- How the names in operands are spelled. -/
def spelling (s : Settings) (classes : List String) (t : ClassTable) : Spelling where
  toSpelled := spelled s classes t
  type n := typeName s t (some n)

section printing

variable {s : Settings} {t : ClassTable} {e e' : Expr} {x y : String}

theorem isType_prints {n : String} (hn : IsName n) (h : Prints t ((dialect s).expr e) x) :
    Prints t ((dialect s).expr (.isType e (some n))) (x ++ " is " ++ typeName s t (some n)) := by
  have text : NoBreak (" is " ++ typeName s t (some n)) :=
    NoBreak.append nofun (plain_typeName s t hn.plain).noBreak
  rw [String.append_assoc]
  refine h.bind fun p => ?_
  refine Serves.bind (Q := (· = typeName s t (some n))) (.look fun d hd _ => by rw [hd]) ?_
  rintro _ rfl
  exact put_prints text p

theorem contains_prints (negated : Bool) (itemType wholeType : Ty)
    (hitem : Prints t ((dialect s).expr e) x) (hwhole : Prints t ((dialect s).expr e') y) :
    Prints t ((dialect s).expr (.contains negated e itemType e' wholeType))
      ((if negated then "!" else "") ++ y ++ ".Contains(" ++ x ++ ")") := by
  have noName : "." ++ pascal "" = "." := by decide +kernel
  have has : callName (some "Array") "has" ++ "(" = "Contains(" := by decide +kernel
  have access : Prints t ((dialect s).access ⟨"", itemType, wholeType, false⟩) "." := by
    show Prints t (put ("." ++ pascal "")) "."
    exact put_prints nofun
  have call : Prints t (put (callName (some "Array") "has" ++ "(")) "Contains(" := by
    rw [has]
    exact put_prints (by decide)
  have close : Prints t (put ")") ")" := put_prints nofun
  have test := hwhole.bind (access.bind (call.bind (hitem.bind close)))
  have text (head : String) : head ++ y ++ ".Contains(" ++ x ++ ")" =
      head ++ (y ++ ("." ++ ("Contains(" ++ (x ++ ")")))) := by
    rw [show ".Contains(" = "." ++ "Contains(" by decide]
    simp only [String.append_assoc]
  rw [text]
  cases negated with
  | true =>
    have mark : Prints t (put "!") "!" := put_prints nofun
    exact mark.bind test
  | false => exact (Prints.nothing (t := t)).bind test

end printing

section reading

variable {s : Settings} {r : Rules (Pages State)} {m : Nat} {a : View (Pages State)} {w : Word}
variable {ws : List Word}

/-- A rule reads an operand: before its words and a word that ends it, the rule passes all but the
links that are left unread, and gives an expression that is written as the operand's text. Whatever
has links is a truth value. -/
def ReadsOperand (s : Settings) (x : ReadM (Pages State) Typed) (e : Operand) : Prop :=
  ∀ a w ws, a.words = e.words ++ w :: ws → EndsExpression w → (a.inParens = true → Leads.isLine w.1 = false) →
    Leads x a { a with words := e.links.unread.words ++ w :: ws } fun r =>
      (e.links ≠ .done → r.1 = some "bool") ∧
        Prints a.table ((dialect s).expr r.2) (e.text (spelling s a.classes a.table))

/-- Rules that read all operands with fewer than `m` words. -/
structure RulesReadOperands (s : Settings) (r : Rules (Pages State)) (m : Nat) : Prop where
  expression : ∀ e : Operand, e.Proper → e.words.length < m → ReadsOperand s r.expression e
  boolean : ∀ e : Operand, e.Proper → e.words.length < m → ReadsOperand s r.boolean e
  follow : 0 < m → ∀ t a w ws, a.words = w :: ws → EndsValue w → Leads (r.follow t) a a fun x => x.2 = .nothing

/-! ## The words between values -/

theorem isOperator_of_comparison {op : String} (h : op ∈ Scan.comparisonOperators) : IsOperator op := by
  have all : ∀ op ∈ Scan.comparisonOperators, IsOperator op := by decide
  exact all op h

theorem endsSum_comparison {op : String} (h : op ∈ Scan.comparisonOperators) :
    EndsSum (.comparison, op) ∧ op ∉ ["if", "as"] := by
  have all : ∀ op ∈ Scan.comparisonOperators, EndsSum (.comparison, op) ∧ op ∉ ["if", "as"] := by decide
  exact all op h

/-- What stands after a value ends it, whether it is a link or a word that ends the operand. -/
theorem links_ahead {l : Links} (hl : l.Proper) (hw : EndsExpression w) (ws : List Word) :
    ∃ u us, l.words ++ w :: ws = u :: us ∧ EndsSum u ∧ u.2 ∉ ["if", "as"] ∧
      (Leads.isLine u.1 = true → l = .done ∧ u = w) := by
  match l with
  | .done => exact ⟨w, ws, rfl, hw.1.1.1, by simp [hw.1.2, hw.2], fun _ => ⟨rfl, rfl⟩⟩
  | .compare op v rest => exact ⟨_, _, rfl, (endsSum_comparison hl.1).1, (endsSum_comparison hl.1).2, nofun⟩
  | .isType t rest | .isIn true v rest | .isIn false v rest => exact ⟨_, _, rfl, by decide, by decide, nofun⟩

theorem unread_proper {l : Links} (h : l.Proper) : l.unread.Proper := by
  match l with
  | .done => trivial
  | .compare _ _ rest => exact unread_proper (l := rest) h.2.2
  | .isType _ rest => exact h.2.2
  | .isIn _ _ rest => exact unread_proper (l := rest) h.2

theorem value_first {v : Value} (h : v.Proper) : ∃ k x ws, v.words = (k, x) :: ws ∧ Starts (k, x) ∧
    k ≠ .unary ∧ x ≠ "in" := by
  match v with
  | .number digits =>
    exact ⟨_, _, _, rfl, starts_of_free h.1 rfl, by decide, fun hin => h.2 (by rw [hin]; decide)⟩
  | .name n => exact ⟨_, _, _, rfl, IsName.starts h, by decide, h.ne (by decide)⟩
  | .call n args => exact ⟨_, _, _, rfl, h.1.starts, by decide, h.1.ne (by decide)⟩

theorem operand_first {e : Operand} (h : e.Proper) : ∃ u us, e.words = u :: us ∧ Starts u := by
  obtain ⟨k, x, us, hv, hs, -⟩ := value_first h.1
  exact ⟨(k, x), us ++ e.links.words, by rw [Operand.words, hv]; rfl, hs⟩

/-! ## Arguments and values -/

theorem arguments_words : ∀ args : Arguments, args.words = commaWords (args.items.map Operand.words)
  | .done => rfl
  | .item v l .done => by simp [Arguments.words, Arguments.items, Arguments.isLast, commaWords, Operand.words]
  | .item v l (.item v' l' rest) => by
    have more := arguments_words (.item v' l' rest)
    rw [Arguments.words, more]
    simp [Arguments.items, Arguments.isLast, commaWords, Operand.words]

theorem arguments_texts (sp : Spelling) : ∀ args : Arguments, args.texts sp = args.items.map (Operand.text sp)
  | .done => rfl
  | .item v l rest => congrArg (l.text sp (v.text sp) :: ·) (arguments_texts sp rest)

/-- An argument is proper, is read to its end, and has no more words than all of them. -/
theorem of_mem_arguments : ∀ {args : Arguments}, args.Proper → ∀ e ∈ args.items,
    e.Proper ∧ e.links.IsWhole ∧ e.words.length ≤ args.words.length
  | .item v l rest, hp, e, h => by
    rw [Arguments.words, length_append, length_append]
    rcases mem_cons.mp h with rfl | h
    · exact ⟨⟨hp.1, hp.2.1⟩, hp.2.2.1, by show (v.words ++ l.words).length ≤ _; omega⟩
    · obtain ⟨h1, h2, h3⟩ := of_mem_arguments hp.2.2.2 e h
      exact ⟨h1, h2, by omega⟩

variable (R : RulesReadOperands s r m)

include R

theorem operandArguments_read (args : Arguments) (hp : args.Proper)
    (hm : args.words.length < m) (h : a.words = args.words ++ mark ')' :: w :: ws) :
    Leads (callArguments (writer s) r) a { a with words := w :: ws } fun es =>
      Forall₂ (fun e => Prints a.table ((dialect s).expr e)) es (args.texts (spelling s a.classes a.table)) := by
  rw [arguments_texts]
  refine callArguments_prints (fun e he => ?_) (by rw [h, arguments_words])
  obtain ⟨hproper, hwhole, hlen⟩ := of_mem_arguments hp e he
  refine ⟨operand_first hproper, fun w ws hw hline => ?_⟩
  have reads := R.expression e hproper (by omega) { a with words := e.words ++ w :: ws } w ws rfl hw fun _ => hline
  rw [show e.links.unread = .done from hwhole] at reads
  exact reads.mono fun x hx => hx.2

section

variable (v : Value) (hv : v.Proper) (hm : v.words.length ≤ m) (h : a.words = v.words ++ w :: ws)

include hv hm h

/-- A value is read and written as it should be, before a word that ends it. -/
theorem operandValue_reads (hw : EndsValue w) :
    Leads (dereference (writer s) r) a { a with words := w :: ws } fun x =>
      Prints a.table ((dialect s).expr x.2) (v.text (spelling s a.classes a.table)) := by
  match v with
  | .number digits =>
    refine dereference_prints ((value_number (quietAt s _) h (.inl rfl)).mono fun x hx => ?_) hw
    rw [hx]
    exact literal_prints _ _
  | .name n =>
    have hcall : w.2 ≠ "(" := fun he => hw (by simp [he])
    refine dereference_prints ((value_name (quietAt s _) h hv hcall).mono fun x hx => ?_) hw
    rw [hx.1]
    exact name_prints hv _ _
  | .call n args =>
    rw [Value.words, length_append, length_cons, length_cons] at hm
    rw [Value.words, append_assoc] at h
    refine dereference_prints (value_text (quietAt s _) h hv.1 ?_) hw
    refine .hit_before rfl ?_
    refine (call_of_arguments hv.1.nonempty (operandArguments_read R args hv.2 (by omega) rfl)
      fun t => R.follow (by omega) t _ w ws rfl hw).mono ?_
    rintro x ⟨es, hx, hes⟩
    rw [hx]
    exact call_prints hv.1 _ hes

theorem operandArithmetic_reads (hw : EndsSum w)
    (hline : a.inParens = true → Leads.isLine w.1 = false) :
    Leads (arithmetic (writer s) r) a { a with words := w :: ws } fun x =>
      Prints a.table ((dialect s).expr x.2) (v.text (spelling s a.classes a.table)) := by
  obtain ⟨k, x, us, hfirst, -, hk, -⟩ := value_first hv
  have ahead : a.words = (k, x) :: (us ++ w :: ws) := by rw [h, hfirst]; rfl
  exact arithmetic_of_sum ahead hk
    (sum_of_dereference (operandValue_reads R v hv hm h hw.1) rfl hw.2 hline (quietAt s _))

end

/-! ## Links -/

theorem membership_reads (negated : Bool) (item : Typed) {x : String}
    (hitem : Prints a.table ((dialect s).expr item.2) x) (e : Operand) (he : e.Proper)
    (hm : e.words.length < m) (hw : EndsExpression w)
    (hline : a.inParens = true → Leads.isLine w.1 = false) (ws : List Word) :
    Leads (membership r negated item)
      { a with words := (if negated then [textWord "in"] else []) ++ e.words ++ w :: ws }
      { a with words := e.links.unread.words ++ w :: ws } fun y =>
        y.1 = some "bool" ∧ Prints a.table ((dialect s).expr y.2)
          ((if negated then "!" else "") ++ e.text (spelling s a.classes a.table) ++ ".Contains(" ++
            x ++ ")") := by
  have found : Leads (expect "in")
      { a with words := (if negated then [textWord "in"] else []) ++ e.words ++ w :: ws }
      { a with words := e.words ++ w :: ws } (· = negated) := by
    cases negated with
    | true => exact Leads.expect_before rfl
    | false =>
      obtain ⟨k, x, us, hfirst, -, -, hin⟩ := value_first he.1
      have ahead : e.words ++ w :: ws = (k, x) :: (us ++ e.links.words ++ w :: ws) := by
        rw [Operand.words, hfirst]
        simp
      exact Leads.expect_miss ahead hin
  refine found.bindEq (.ite_neg (by cases negated <;> decide) ?_)
  refine (R.expression e he hm { a with words := e.words ++ w :: ws } w ws rfl hw hline).bind
    fun y hy => .pure ⟨rfl, ?_⟩
  exact contains_prints negated _ _ hitem hy.2

theorem operandBoolean_reads (e : Operand) (he : e.Proper)
    (hm : e.words.length ≤ m) : ReadsOperand s (boolean (writer s) r) e := by
  obtain ⟨v, l⟩ := e
  obtain ⟨hv, hl⟩ := he
  intro a w ws h hw hline
  simp only [Operand.words, length_append, append_assoc] at hm h
  obtain ⟨u, us, hu, hends, -, hlast⟩ := links_ahead hl hw ws
  have notLine : a.inParens = true → Leads.isLine u.1 = false := by
    intro hi
    cases hk : Leads.isLine u.1 with
    | false => rfl
    | true => rw [(hlast hk).2, hline hi] at hk; cases hk
  refine (operandArithmetic_reads R v hv (by omega) (h.trans (by rw [hu])) hends notLine).bind fun x hx => ?_
  rw [← hu]
  cases l with
  | done =>
    have hwords := hw.1.1.2.2
    simp only [mem_cons, not_mem_nil, or_false, not_or] at hwords
    refine (Leads.kindIs rfl _).bindEq (.ite_neg (by simpa using hw.1.1.2.1) ?_)
    refine .miss rfl hwords.1 (.miss rfl hwords.2.1 (.miss rfl hwords.2.2 (.pure ⟨?_, hx⟩)))
    exact fun hne => absurd rfl hne
  | compare op v' rest =>
    simp only [Links.words, length_cons, length_append] at hm
    refine (Leads.kindIs rfl _).bindEq (.ite_pos rfl ?_)
    refine (Leads.consume_before rfl).bindEq ?_
    refine (R.boolean ⟨v', rest⟩ hl.2 (by simp only [Operand.words, length_append]; omega)
      { a with words := v'.words ++ rest.words ++ w :: ws } w ws rfl hw hline).bind fun y hy => ?_
    refine .pure ⟨fun _ => rfl, ?_⟩
    exact binary_prints (isOperator_of_comparison hl.1) hx hy.2
  | isType t rest =>
    obtain ⟨u', us', hu', hends', -⟩ := links_ahead hl.2.2 hw ws
    refine (Leads.kindIs rfl _).bindEq (.ite_neg (by decide) ?_)
    refine .hit rfl ?_
    refine (type_single (congrArg (textWord t :: ·) hu') hl.2.1 hends'.1).bindEq ?_
    rw [← hu']
    exact .pure ⟨fun _ => rfl, isType_prints hl.1 hx⟩
  | isIn negated v' rest =>
    simp only [Links.words, length_cons, length_append] at hm
    have hlen : (Operand.mk v' rest).words.length < m := by
      simp only [Operand.words, length_append]
      omega
    have test := membership_reads R negated x hx ⟨v', rest⟩ hl hlen hw hline ws
    cases negated with
    | true =>
      refine (Leads.kindIs rfl _).bindEq (.ite_neg (by decide) (.miss rfl (by decide) ?_))
      exact .hit rfl (test.mono fun y hy => ⟨fun _ => hy.1, hy.2⟩)
    | false =>
      refine (Leads.kindIs rfl _).bindEq (.ite_neg (by decide) (.miss rfl (by decide) ?_))
      refine .miss rfl (by decide) ((Leads.expect_before rfl).bindEq ?_)
      exact .ite_pos rfl (test.mono fun y hy => ⟨fun _ => hy.1, hy.2⟩)

/-- An operand is an expression: what it leaves goes on neither a choice nor a conversion. -/
theorem operandExpression_reads (e : Operand) (he : e.Proper)
    (hm : e.words.length ≤ m) : ReadsOperand s (expression (writer s) r) e := by
  intro a w ws h hw hline
  obtain ⟨u, us, hu, -, hnot, -⟩ := links_ahead (unread_proper he.2) hw ws
  simp only [mem_cons, not_mem_nil, or_false, not_or] at hnot
  have boolean := operandBoolean_reads R e he hm a w ws h hw hline
  rw [hu] at boolean ⊢
  exact expression_of_boolean boolean rfl hnot.1 hnot.2

omit R

theorem rules_read_operands (s : Settings) (n : Nat) : RulesReadOperands s (rules (writer s) n) n := by
  induction n with
  | zero =>
    exact ⟨nofun, nofun, nofun⟩
  | succ n ih =>
    exact ⟨fun e he h => operandExpression_reads ih e he (by omega),
      fun e he h => operandBoolean_reads ih e he (by omega), fun _ t a w ws h hw => follow_reads t h hw⟩

end reading

/-! ## Two operands -/

/-- In a view, an expression is read up to some words, has a type with `Q`, and is written as a text. -/
def Emits (s : Settings) (n : Nat) (a : View (Pages State)) (rest : List Word) (Q : Ty → Prop)
    (text : String) : Prop :=
  Leads (expression (writer s) (rules (writer s) n)) a { a with words := rest } fun x =>
    Q x.1 ∧ Prints a.table ((dialect s).expr x.2) text

/-- Two operands compose: each of them and both with an operator between are read up to the word after
them, and both together are a truth value, written as the first, the operator and the second. -/
def Composes (s : Settings) (n : Nat) (a : View (Pages State)) (e : Operand) (op : String)
    (e' : Operand) (rest : List Word) : Prop :=
  ∃ x x', Emits s n { a with words := e.words ++ rest } rest (fun _ => True) x ∧
    Emits s n { a with words := e'.words ++ rest } rest (fun _ => True) x' ∧
    Emits s n { a with words := e.words ++ (.comparison, op) :: e'.words ++ rest } rest
      (· = some "bool") (x ++ (if op = "and" then " && " else " || ") ++ x')

section composing

variable {s : Settings} {n : Nat} {a : View (Pages State)} {e e' : Operand} {op : String} {w : Word}

theorem Emits.unique {rest rest' : List Word} {P Q : Ty → Prop} {x y : String}
    (h : Emits s n a rest P x) (h' : Emits s n a rest' Q y) (ha : a.words ≠ []) : rest = rest' ∧ x = y := by
  obtain ⟨hview, r, hr, hr'⟩ := h.both h' ha
  exact ⟨congrArg View.words hview, hr.2.unique hr'.2⟩

theorem operatorPrint_connective (h : op ∈ ["and", "or"]) :
    texts.operatorPrint op = if op = "and" then " && " else " || " := by
  simp only [mem_cons, not_mem_nil, or_false] at h
  rcases h with rfl | rfl <;> decide

section

variable (ws : List Word) (he : e.Proper) (hn : e.words.length ≤ n) (hw : EndsExpression w) (hin : a.inParens = false)

include he hn hw hin

theorem operand_emits : Emits s n { a with words := e.words ++ w :: ws }
      (e.links.unread.words ++ w :: ws) (fun t => e.links ≠ .done → t = some "bool")
      (e.text (spelling s a.classes a.table)) :=
  operandExpression_reads (rules_read_operands s n) e he hn { a with words := e.words ++ w :: ws } w ws
    rfl hw fun hi => by rw [show a.inParens = true from hi] at hin; cases hin

variable {ws} in
/-- An operand that is read up to the word after it leaves no links, and its text is the one that is
made of it. -/
theorem of_emits {Q : Ty → Prop} {x : String}
    (h : Emits s n { a with words := e.words ++ w :: ws } (w :: ws) Q x) :
    e.links.IsWhole ∧ x = e.text (spelling s a.classes a.table) := by
  have hne : e.words ++ w :: ws ≠ [] := by simp
  obtain ⟨hrest, htext⟩ := h.unique (operand_emits ws he hn hw hin) hne
  have hnil : e.links.unread.words = [] := by
    have lengths := congrArg length hrest
    simp only [length_append] at lengths
    exact eq_nil_of_length_eq_zero (by omega)
  exact ⟨Links.words_eq_nil hnil, htext⟩

theorem emits_of_isWhole (h : e.links.IsWhole) :
    Emits s n { a with words := e.words ++ w :: ws } (w :: ws)
      (fun t => e.links ≠ .done → t = some "bool") (e.text (spelling s a.classes a.table)) := by
  have emits := operand_emits (s := s) ws he hn hw hin
  rw [show e.links.unread = .done from h] at emits
  exact emits

end

/-- **When `and` and `or` compose.** Two operands joined by `and` or `or` are read to their end, as a
truth value, and written as the first, the operator and the second, if and only if the first has no
test after its values and the second has no type test but as its last link. -/
theorem composes_iff (s : Settings) (n : Nat) (a : View (Pages State)) (e e' : Operand) (op : String)
    (w : Word) (ws : List Word) (he : e.Proper) (he' : e'.Proper) (hop : op ∈ ["and", "or"])
    (hn : e.words.length + e'.words.length < n) (hw : Follows w) (hin : a.inParens = false) :
    Composes s n a e op e' (w :: ws) ↔ e.links.IsPlain ∧ e'.links.IsWhole := by
  have hends := hw.endsExpression
  have hop' : op ∈ Scan.comparisonOperators := by
    simp only [mem_cons, not_mem_nil, or_false] at hop
    rcases hop with rfl | rfl <;> decide
  have hjoin : (e.join op e').Proper := he.join he' hop'
  have hlen : (e.join op e').words.length ≤ n := by
    rw [Operand.words_join, length_append, length_cons]
    omega
  have hwords : e.words ++ (.comparison, op) :: e'.words ++ w :: ws =
      (e.join op e').words ++ w :: ws := by rw [Operand.words_join]
  unfold Composes
  rw [hwords]
  constructor
  · rintro ⟨x, x', hx, hx', hboth⟩
    obtain ⟨-, rfl⟩ := of_emits he (by omega) hends hin hx
    obtain ⟨whole, rfl⟩ := of_emits he' (by omega) hends hin hx'
    obtain ⟨hall, htext⟩ := of_emits hjoin hlen hends hin hboth
    have untyped := ((Links.isWhole_join_iff e.links).mp hall).1
    rw [← operatorPrint_connective hop] at htext
    exact ⟨(Links.join_splits_iff _ untyped hop _).mp htext.symm, whole⟩
  · rintro ⟨plain, whole⟩
    have hall : (e.join op e').links.IsWhole := (Links.isWhole_join_iff e.links).mpr ⟨plain.untyped, whole⟩
    have both := emits_of_isWhole (s := s) (a := a) ws hjoin hlen hends hin hall
    refine ⟨e.text (spelling s a.classes a.table), e'.text (spelling s a.classes a.table),
      (emits_of_isWhole ws he (by omega) hends hin plain.untyped.isWhole).mono ?_,
      (emits_of_isWhole ws he' (by omega) hends hin whole).mono ?_, both.mono ?_⟩
    · exact fun x hx => ⟨trivial, hx.2⟩
    · exact fun x hx => ⟨trivial, hx.2⟩
    · intro x hx
      refine ⟨hx.1 (Links.join_ne_done _), ?_⟩
      rw [← operatorPrint_connective hop]
      have side := (Links.join_splits_iff (e := e') (spelling s a.classes a.table) plain.untyped hop
        (e.first.text (spelling s a.classes a.table))).mpr plain
      have prints := hx.2
      rw [show (e.join op e').text _ = _ from side] at prints
      exact prints

end composing

/-- A comparison with a call that has a membership test among its arguments. -/
def comparedCall : Operand :=
  ⟨.name "a", .compare "==" (.call "f" (.item (.name "x") (.isIn false (.name "c") .done) .done)) .done⟩

/-- A comparison whose second value is tested. -/
def comparedTest : Operand :=
  ⟨.number "1", .compare "<" (.name "y") (.isType "Node" .done)⟩

theorem comparedCall_proper : comparedCall.Proper := by
  simp only [Operand.Proper, comparedCall, Value.Proper, Links.Proper, Arguments.Proper, Links.IsWhole, Links.unread]
  decide

theorem comparedTest_proper : comparedTest.Proper := by
  simp only [Operand.Proper, comparedTest, Value.Proper, Links.Proper]
  decide

theorem composes_iff_compared :
    let a := (readerBefore "\n").view
    comparedCall.text (spelling {} ["S"] {}) = "a == F(c.Contains(x))" ∧
    comparedTest.text (spelling {} ["S"] {}) = "1 < y is Node" ∧
    Composes {} 20 a comparedCall "and" comparedTest [(.lineEnd, "0")] ∧
      ¬ Composes {} 20 a comparedTest "and" comparedCall [(.lineEnd, "0")] := by
  refine ⟨by decide +kernel, by decide +kernel, ?_, ?_⟩
  · refine (composes_iff {} 20 _ comparedCall comparedTest "and" (.lineEnd, "0") [] comparedCall_proper
      comparedTest_proper (by decide) (by decide +kernel) (.lineEnd 0) rfl).mpr ⟨trivial, rfl⟩
  · intro h
    exact ((composes_iff {} 20 _ comparedTest comparedCall "and" (.lineEnd, "0") [] comparedTest_proper
      comparedCall_proper (by decide) (by decide +kernel) (.lineEnd 0) rfl).mp h).1

/-- After a membership test, `and` goes into the collection; after a type test, it is not read. -/
theorem and_after_test_misread :
    let written text := run (writer {}) "Main" text ⟨{}, #[], start⟩
    let lines text := (written text).desk.log.toList.filterMap Event.printed?
    Text.occursIn "A = c && y.Contains(x);" (written "var a = x in c and y").desk.pages.own.result = true ∧
    Text.occursIn "A = c.Contains(x) && y;" (written "var a = x in c and y").desk.pages.own.result = false ∧
    lines "var a = x in c and y" = [] ∧
    (lines "var a = x is T and y").any (Text.occursIn "PANIC! <and y> unexpected") = true := by
  decide +kernel

end CSharp

end GdScribe
