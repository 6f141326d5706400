import GdScribe.Proofs.Expression.Phrase
import GdScribe.Target.Collect

/-!
# Reading single values

What a reader makes of a single value and of the word after it, for any target.

* `EndsValue`, …, `EndsExpression` — words that cannot go on a phrase of some rank.

Principal results: `value_name`, `value_number` and `call_of_arguments` for the values themselves,
and `expression_of_value` for a value that nothing follows.
-/

namespace GdScribe.Read

open Phrase List

/-- A word that does not go on a value. -/
abbrev EndsValue (w : Word) : Prop := w.2 ∉ [".", "(", "["]

/-- A word that does not go on values joined by operators. -/
abbrev EndsSum (w : Word) : Prop := EndsValue w ∧ w.1 ≠ .arithmetic

/-- A word that does not go on a comparison. -/
abbrev EndsComparison (w : Word) : Prop :=
  EndsSum w ∧ w.1 ≠ .comparison ∧ w.2 ∉ ["is", "not", "in"]

/-- A word that does not go on a conditional choice. -/
abbrev EndsChoice (w : Word) : Prop := EndsComparison w ∧ w.2 ≠ "if"

/-- A word that does not go on an expression. -/
abbrev EndsExpression (w : Word) : Prop := EndsChoice w ∧ w.2 ≠ "as"

/-- A word that can stand after an expression on its line. -/
inductive Follows : Word → Prop
  | lineEnd (tabs : Nat) : Follows (.lineEnd, toString tabs)
  | closing {c : Char} (h : c ∈ [')', ',', ']', '\x7d', ':']) : Follows (mark c)

theorem toString_ne {x : String} (hx : ∃ c ∈ x.toList, c.isDigit = false) (n : Nat) : toString n ≠ x := by
  rintro rfl
  obtain ⟨c, hc, hf⟩ := hx
  have digits : (toString n).toList = Nat.toDigits 10 n := by
    rw [Nat.toString_eq_ofList_toDigits, String.toList_ofList]
  rw [digits] at hc
  rw [Nat.isDigit_of_mem_toDigits (by decide) (by decide) hc] at hf
  cases hf

theorem Follows.endsExpression {w : Word} (h : Follows w) : EndsExpression w := by
  cases h with
  | lineEnd n =>
    have ne {x : String} (hx : ∃ c ∈ x.toList, c.isDigit = false) : toString n ≠ x := toString_ne hx n
    refine ⟨⟨⟨⟨?_, nofun⟩, nofun, ?_⟩, ne (by decide)⟩, ne (by decide)⟩ <;>
      simp only [EndsValue, mem_cons, not_mem_nil, or_false, not_or] <;>
      exact ⟨ne (by decide), ne (by decide), ne (by decide)⟩
  | closing h =>
    simp only [mem_cons, not_mem_nil, or_false] at h
    rcases h with rfl | rfl | rfl | rfl | rfl <;> decide

/-- What a bare name stands for. -/
def roleIn (classes : List String) (t : ClassTable) (n : String) : NameRole :=
  if t.globals.members.contains n then .singleton
  else if (t.info (classes.headD "")).members.contains n ||
    (t.parent (classes.headD "")).members.contains n then .property
  else .variable

/-- The tree of a call by its name alone. -/
def callTree (t : ClassTable) (n : String) (args : List Expr) : Expr :=
  if t.contains n then .construct n (some n) args
  else .call (if t.globals.methods.contains n then some ClassTable.globalScope else none) n args

variable {σ : Type} {wr : Writer σ} {r : Rules σ} {a b : View σ}
variable {k : TokenKind} {v n : String} {w : Word} {ws ws' : List Word}

/-- Between parentheses, where a line may end before a value, writing nothing changes nothing. -/
def QuietAt (wr : Writer σ) (a : View σ) : Prop :=
  a.inParens = true → Serves (wr.serve (.put "")) a.table a.pages a.table a.pages

theorem Collect.quiet (a : View Unit) : Leads.Quiet Collect.writer a :=
  fun d hc hp => ⟨(), d, rfl, trivial, hc, hp, rfl⟩

/-! ## Literals, marks and names -/

theorem value_number (hq : QuietAt wr a) (h : a.words = (k, v) :: w :: ws) (hk : k = .int ∨ k = .hex) :
    Leads (value wr r) a { a with words := w :: ws } fun x => x = (some "int", .literal v) := by
  have hl : Leads.isLine k = false := by rcases hk with rfl | rfl <;> rfl
  refine (Leads.endLineInParens_here h (fun _ => hl) hq).bind fun _ _ => ?_
  refine (Leads.current h).bind fun t ht => Leads.ite_pos (by rw [ht.1]; exact hk) ?_
  exact (Leads.consume h).bindEq (.pure rfl)

theorem value_truth (hq : QuietAt wr a) (h : a.words = (.text, v) :: w :: ws) (hv : v = "true" ∨ v = "false") :
    Leads (value wr r) a { a with words := w :: ws } fun x => x = (some "bool", .literal v) := by
  refine (Leads.endLineInParens_here h (fun _ => rfl) hq).bind fun _ _ => ?_
  refine (Leads.current h).bind fun t ht => ?_
  rw [ht.1, ht.2]
  refine Leads.ite_neg nofun (Leads.ite_neg nofun (Leads.ite_pos hv ?_))
  exact (Leads.consume h).bindEq (.pure rfl)

variable {Q : Typed → Prop}

theorem value_marked (hq : QuietAt wr a) (h : a.words = (k, v) :: ws)
    (hk : k ∉ [.int, .hex, .float, .string, .longString, .lineEnd, .comment])
    (hv : v ∉ ["true", "false"]) (hm : Leads (markedValue wr r k) a b Q) : Leads (value wr r) a b Q := by
  simp only [mem_cons, not_mem_nil, or_false, not_or] at hk hv
  obtain ⟨h1, h2, h3, h4, h5, h6, h7⟩ := hk
  have hl : Leads.isLine k = false := by cases k <;> first | rfl | contradiction
  refine (Leads.endLineInParens_here h (fun _ => hl) hq).bind fun _ _ => ?_
  refine (Leads.current h).bind fun t ht => ?_
  rw [ht.1, ht.2]
  refine Leads.ite_neg (fun hk => hk.elim h1 h2) (Leads.ite_neg h3 ?_)
  exact Leads.ite_neg (fun hw => hw.elim hv.1 hv.2) (Leads.ite_neg (fun hk => hk.elim h5 h4) hm)

theorem value_text (hq : QuietAt wr a) (h : a.words = textWord n :: w :: ws)
    (hn : IsName n) (hm : Leads (do if ← expect "(" then call wr r n none else bareName n)
      { a with words := w :: ws } b Q) : Leads (value wr r) a b Q := by
  have free : n ∉ ["true", "false"] := fun ht => hn.free (by revert ht; simp [reserved]; tauto)
  refine value_marked hq h nofun free ?_
  iterate 6 refine .miss h (hn.ne (by decide)) ?_
  refine Leads.ite_pos rfl ?_
  exact (Leads.consume h).bindEq hm

/-- A bare name, with a type that is known of it; the type of a singleton is marked. -/
theorem bareName_reads (n : String) : Leads (bareName n) a a fun x => x.2 = .name (roleIn a.classes a.table n) n ∧
      ∃ st : Reader σ, st.view = a ∧
        (x.1 = nameType st n ∨ x.1 = (nameType st n).map (· ++ "singleton")) := by
  refine Leads.get_bind fun st hst => ?_
  have role : nameRole st n = roleIn a.classes a.table n := by rw [← hst]; rfl
  rw [role]
  refine (Leads.note _).bind fun _ _ => ?_
  cases roleIn a.classes a.table n with
  | singleton => exact .pure ⟨rfl, st, hst, .inr rfl⟩
  | _ => exact .pure ⟨rfl, st, hst, .inl rfl⟩

theorem value_name (hq : QuietAt wr a) (h : a.words = textWord n :: w :: ws) (hn : IsName n)
    (hw : w.2 ≠ "(") : Leads (value wr r) a { a with words := w :: ws } fun x =>
      x.2 = .name (roleIn a.classes a.table n) n ∧ ∃ st : Reader σ,
        st.view = { a with words := w :: ws } ∧
        (x.1 = nameType st n ∨ x.1 = (nameType st n).map (· ++ "singleton")) :=
  value_text hq h hn (.miss rfl hw (bareName_reads n))

/-! ## Calls -/

theorem call_of_arguments {P : List Expr → Prop} (hn : n ≠ "") (hargs : Leads (callArguments wr r) a b P)
    (hfollow : ∀ t, Leads (r.follow t) b b fun x => x.2 = .nothing) :
    Leads (call wr r n none) a b fun x =>
      ∃ args, x.2 = .seq (callTree a.table n args) .nothing ∧ P args := by
  refine Leads.get_bind fun st hst => ?_
  have table : st.desk.classes = a.table := congrArg View.table hst
  rw [table]
  refine hargs.bind fun args hp => (hfollow _).bind fun x hx => .pure ⟨args, ?_, hp⟩
  rw [hx]
  unfold callTree
  by_cases hc : a.table.contains n = true
  · have known : callType st n none = some n := by
      unfold callType
      dsimp only
      rw [table, if_pos hc]
      unfold Ty.orElse
      simp [Ty.known, hn]
    rw [if_pos hc, if_pos hc, known]
  · rw [if_neg hc, if_neg hc]
    rfl

theorem follow_reads (t : Ty) (h : a.words = w :: ws) (hw : EndsValue w) :
    Leads (follow wr r t) a a fun x => x.2 = .nothing := by
  simp only [EndsValue, mem_cons, not_mem_nil, or_false, not_or] at hw
  exact .miss h hw.1 (.miss h hw.2.1 (.miss h hw.2.2 (.pure rfl)))

/-! ## A value that nothing follows -/

/-- A type without the mark of singletons. -/
def unmarked (t : Ty) : Ty :=
  if t.endsWith "singleton" then t.map (Text.dropEnd · "singleton".length) else t

theorem dereference_of_value (h : Leads (value wr r) a b Q) (hb : b.words = w :: ws) (hw : EndsValue w) :
    Leads (dereference wr r) a b fun x => ∃ y, Q y ∧ x = (unmarked y.1, y.2) := by
  simp only [EndsValue, mem_cons, not_mem_nil, or_false, not_or] at hw
  refine h.bind fun y hy => ?_
  exact .miss hb hw.1 (.miss hb hw.2.2 (.pure ⟨y, hy, rfl⟩))

theorem sum_of_dereference (h : Leads (dereference wr r) a b Q) (hb : b.words = w :: ws) (hw : w.1 ≠ .arithmetic)
    (hline : b.inParens = true → Leads.isLine w.1 = false) (hq : QuietAt wr b) : Leads (sum wr r) a b Q := by
  refine h.bind fun x hx => (Leads.endLineInParens_here hb hline hq).bind fun _ _ => ?_
  exact (Leads.kindIs hb _).bindEq (.ite_neg (by simpa using hw) (.pure hx))

theorem arithmetic_of_sum (ha : a.words = (k, v) :: ws') (hk : k ≠ .unary) (h : Leads (sum wr r) a b Q) :
    Leads (arithmetic wr r) a b Q :=
  (Leads.kindIs ha _).bindEq (.ite_neg (by simpa using hk) h)

theorem boolean_of_arithmetic (h : Leads (arithmetic wr r) a b Q) (hb : b.words = w :: ws) (hw : EndsComparison w) :
    Leads (boolean wr r) a b Q := by
  have hwords := hw.2.2
  simp only [mem_cons, not_mem_nil, or_false, not_or] at hwords
  refine h.bind fun x hx => (Leads.kindIs hb _).bindEq (.ite_neg (by simpa using hw.2.1) ?_)
  exact .miss hb hwords.1 (.miss hb hwords.2.1 (.miss hb hwords.2.2 (.pure hx)))

theorem expression_of_boolean (h : Leads (boolean wr r) a b Q) (hb : b.words = w :: ws) (hif : w.2 ≠ "if")
    (has : w.2 ≠ "as") : Leads (expression wr r) a b Q := by
  have ternary : Leads (ternary wr r) a b Q := h.bind fun x hx => .miss hb hif (.pure hx)
  exact ternary.bind fun x hx => .miss hb has (.pure hx)

section

variable (ha : a.words = (k, v) :: ws') (hk : k ≠ .unary)
  (h : Leads (value wr r) a b Q) (hb : b.words = w :: ws) (hin : b.inParens = false)

include ha hk h hb hin

theorem boolean_of_value (hw : EndsComparison w) :
    Leads (boolean wr r) a b fun x => ∃ y, Q y ∧ x = (unmarked y.1, y.2) := by
  have outside : b.inParens = true → False := fun hi => by rw [hin] at hi; cases hi
  have sum := sum_of_dereference (dereference_of_value h hb hw.1.1) hb hw.1.2 (fun hi => (outside hi).elim)
    fun hi => (outside hi).elim
  exact boolean_of_arithmetic (arithmetic_of_sum ha hk sum) hb hw

theorem expression_of_value (hw : EndsExpression w) :
    Leads (expression wr r) a b fun x => ∃ y, Q y ∧ x = (unmarked y.1, y.2) :=
  expression_of_boolean (boolean_of_value ha hk h hb hin hw.1.1) hb hw.1.2 hw.2

end

/-! ## Brackets -/

/-- Between parentheses lines may end anywhere; after them, what was before counts again. -/
theorem grouped_of_expression (ha : a.words = (k, v) :: ws') (hk : Leads.isLine k = false) (hq : Leads.Quiet wr a)
    (h : Leads r.expression { a with inParens := true } { a with words := mark ')' :: w :: ws, inParens := true } Q) :
    Leads (grouped wr r) a { a with words := w :: ws } fun x => ∃ y, Q y ∧ x = (y.1, .group y.2) := by
  refine Leads.get_bind fun st hst => ?_
  have outer : st.inParens = a.inParens := congrArg View.inParens hst
  rw [outer]
  refine (Leads.setParens true).bind fun _ _ => ?_
  refine (Leads.endLine_here (a := { a with inParens := true }) ha hk hq).bind fun _ _ => h.bind fun x hx => ?_
  refine (Leads.endLine_here
    (a := { a with words := mark ')' :: w :: ws, inParens := true }) rfl rfl hq).bind fun _ _ => ?_
  refine (Leads.expect_hit rfl).bindEq ?_
  cases hi : a.inParens with
  | true => exact Leads.ite_neg nofun (.pure ⟨x, hx, rfl⟩)
  | false => exact Leads.ite_pos rfl ((Leads.setParens false).bind fun _ _ => .pure ⟨x, hx, rfl⟩)

/-- The type of an element, where it is known. -/
def element (t : Ty) : Ty :=
  match t with
  | some s => if Text.occursIn "[]" s then some (Text.replaceAll s "[]" "") else none
  | none => none

theorem subscription_of_key {P : Typed → Prop} {t : Ty}
    (hkey : Leads r.expression a { a with words := mark ']' :: w :: ws } P)
    (hfollow : Leads (r.follow (element t)) { a with words := w :: ws } b Q) :
    Leads (subscription r t) a b fun x => ∃ key rest, P key ∧ Q rest ∧ x = (rest.1, .seq (.index key.2) rest.2) :=
  hkey.bind fun key hk => (Leads.expect_hit rfl).bindEq <| hfollow.bind fun rest hr => .pure ⟨key, rest, hk, hr, rfl⟩

end GdScribe.Read
