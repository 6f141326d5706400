import GdScribe.Proofs.Reader.Values

/-!
# The type of arithmetic

Numbers that are joined by operators, with parentheses. A reader takes the type of the rest for the type
of the whole, and so in the end that of the last number.

* `Arithmetic`: arithmetic on numbers: terms, and sums of them.
* `hasFloat`, `endsInFloat`: whether any number is a float, and whether the last one is.

Main statement: `arithmetic_typed_by_last`.
-/

namespace GdScribe

open Read Phrase List

/-- An operator between numbers. -/
inductive Sign
  | plus
  | minus
  | times
  | over

def Sign.text : Sign → String
  | .plus => "+"
  | .minus => "-"
  | .times => "*"
  | .over => "/"

/-- Arithmetic on numbers: a term, or a sum of terms with operators between them. -/
inductive Arithmetic : (isSum : Bool) → Type
  | number (isFloat : Bool) (digits : String) : Arithmetic false
  | group (inner : Arithmetic true) : Arithmetic false
  | last (t : Arithmetic false) : Arithmetic true
  | more (t : Arithmetic false) (sign : Sign) (rest : Arithmetic true) : Arithmetic true

namespace Arithmetic

def words : {k : Bool} → Arithmetic k → List Word
  | _, .number isFloat digits => [(if isFloat then .float else .int, digits)]
  | _, .group e => mark '(' :: e.words ++ [mark ')']
  | _, .last t => t.words
  | _, .more t sign rest => t.words ++ (.arithmetic, sign.text) :: rest.words

/-- Whether any of the numbers is a float. -/
def hasFloat : {k : Bool} → Arithmetic k → Bool
  | _, .number isFloat _ => isFloat
  | _, .group e => e.hasFloat
  | _, .last t => t.hasFloat
  | _, .more t _ rest => t.hasFloat || rest.hasFloat

/-- Whether the last of the numbers is a float. -/
def endsInFloat : {k : Bool} → Arithmetic k → Bool
  | _, .number isFloat _ => isFloat
  | _, .group e => e.endsInFloat
  | _, .last t => t.endsInFloat
  | _, .more _ _ rest => rest.endsInFloat

theorem hasFloat_of_ends : ∀ {k : Bool} (e : Arithmetic k), e.endsInFloat = true → e.hasFloat = true
  | _, .number .., h => h
  | _, .group e, h => hasFloat_of_ends e h
  | _, .last t, h => hasFloat_of_ends t h
  | _, .more t _ rest, h => by rw [hasFloat, hasFloat_of_ends rest h, Bool.or_true]

theorem first_word : ∀ {k : Bool} (e : Arithmetic k),
    ∃ k v ws, e.words = (k, v) :: ws ∧ k ≠ .unary ∧ Leads.isLine k = false
  | _, .number isFloat _ => ⟨_, _, _, rfl, by cases isFloat <;> decide, by cases isFloat <;> rfl⟩
  | _, .group _ => ⟨_, _, _, rfl, by decide, rfl⟩
  | _, .last t => first_word t
  | _, .more t sign rest =>
    have ⟨k, v, ws, h, first⟩ := first_word t
    ⟨k, v, ws ++ (.arithmetic, sign.text) :: rest.words, by rw [words, h]; rfl, first⟩

def numberType (isFloat : Bool) : Ty := some (if isFloat then "float" else "int")

variable {σ : Type} {wr : Writer σ} {a : View σ} {w : Word} {ws : List Word} {n : Nat}

/-- The sums that the rules read, with their types. -/
def SumsRead (wr : Writer σ) (n : Nat) : Prop :=
  ∀ (e : Arithmetic true) (a : View σ) (w : Word) (ws : List Word), e.words.length ≤ n → Leads.Quiet wr a →
    a.words = e.words ++ w :: ws → EndsSum w → (a.inParens = true → Leads.isLine w.1 = false) →
    Leads (sum wr (rules wr n)) a { a with words := w :: ws } fun x => x.1 = numberType e.endsInFloat

theorem expression_reads (R : SumsRead wr n) (e : Arithmetic true) (hn : e.words.length ≤ n) (quiet : Leads.Quiet wr a)
    (h : a.words = e.words ++ w :: ws) (hw : EndsExpression w) (hline : a.inParens = true → Leads.isLine w.1 = false) :
    Leads (expression wr (rules wr n)) a { a with words := w :: ws } fun x => x.1 = numberType e.endsInFloat := by
  obtain ⟨k, v, us, first, hk, -⟩ := e.first_word
  have ahead : a.words = (k, v) :: (us ++ w :: ws) := by rw [h, first]; rfl
  have sum := R e a w ws hn quiet h hw.1.1.1 hline
  exact expression_of_boolean (boolean_of_arithmetic (arithmetic_of_sum ahead hk sum) rfl hw.1.1) rfl hw.1.2 hw.2

theorem term_reads (R : SumsRead wr n) (t : Arithmetic false) (hn : t.words.length ≤ n + 1) (quiet : Leads.Quiet wr a)
    (h : a.words = t.words ++ w :: ws) (hw : EndsValue w) :
    Leads (dereference wr (rules wr (n + 1))) a { a with words := w :: ws }
      fun x => x.1 = numberType t.endsInFloat := by
  have typed : Leads (value wr (rules wr (n + 1))) a { a with words := w :: ws } fun x =>
      x.1 = numberType t.endsInFloat := by
    cases t with
    | number isFloat digits =>
      cases isFloat with
      | false => exact (value_number (fun _ => quiet) h (.inl rfl)).mono fun x hx => by rw [hx]; rfl
      | true =>
        refine (Leads.endLineInParens_here h (fun _ => rfl) fun _ => quiet).bind fun _ _ => ?_
        refine (Leads.current h).bind fun t ht => ?_
        rw [ht.1]
        exact .ite_neg nofun (.ite_pos rfl ((Leads.consume h).bindEq (.pure rfl)))
    | group e =>
      obtain ⟨k, v, us, first, -, hline⟩ := e.first_word
      simp only [words, length_append, length_cons] at hn
      rw [words, append_assoc] at h
      refine value_marked (fun _ => quiet) h nofun nofun ?_
      refine .miss h (by decide) (.miss h nofun ?_)
      refine .hit_before h ?_
      have inner := expression_reads (a := { a with words := e.words ++ mark ')' :: w :: ws, inParens := true }) R e
        (by omega) quiet rfl (by decide) fun _ => rfl
      refine (grouped_of_expression (a := { a with words := e.words ++ mark ')' :: w :: ws }) (by rw [first]; rfl) hline
        quiet inner).mono ?_
      rintro _ ⟨y, hy, rfl⟩
      exact hy
  refine (dereference_of_value typed rfl hw).mono ?_
  rintro _ ⟨y, hy, rfl⟩
  rw [hy]
  cases t.endsInFloat <;> rfl

/-- **Sums are read.** By induction on how deep the rules can be nested: a sum in parentheses and the rest of a sum
come after at least one word. -/
theorem sums_read (n : Nat) : SumsRead wr n := by
  induction n with
  | zero =>
    intro e a w ws hn
    obtain ⟨k, v, us, first, -⟩ := e.first_word
    simp [first] at hn
  | succ n ih =>
    intro e a w ws hn quiet h hw hline
    cases e with
    | last t => exact sum_of_dereference (term_reads ih t hn quiet h hw.1) rfl hw.2 hline fun _ => quiet
    | more t sign rest =>
      simp only [words, length_append, length_cons] at hn
      rw [words, append_assoc] at h
      have quietAt (b : View σ) (hb : b = { a with words := b.words }) : QuietAt wr b := fun _ => hb ▸ quiet
      refine (term_reads ih t (by omega) quiet h (by cases sign <;> decide)).bind fun x _ => ?_
      refine (Leads.endLineInParens_here rfl (fun _ => rfl) (quietAt _ rfl)).bind fun _ _ => ?_
      refine (Leads.kindIs rfl _).bindEq (.ite_pos (by decide) ?_)
      refine (Leads.consume_before rfl).bindEq ?_
      exact (ih rest { a with words := rest.words ++ w :: ws } w ws (by omega) quiet rfl hw hline).bind
        fun y hy => .pure hy

end Arithmetic

open Arithmetic

/-- **Arithmetic has the type of its last number**, whatever stands before it: this is the type of all its numbers
exactly if a float among them entails that the last one is a float. -/
theorem arithmetic_typed_by_last {σ : Type} {wr : Writer σ} (e : Arithmetic true) (n : Nat) (hn : e.words.length ≤ n)
    (s : Reader σ) (quiet : Leads.Quiet wr s.view) (w : Word) (ws : List Word) (h : s.view.words = e.words ++ w :: ws)
    (hw : Follows w) (hline : s.inParens = true → Leads.isLine w.1 = false) :
    ∃ t x s', expression wr (rules wr n) s = .ok (t, x) s' ∧ s'.view = { s.view with words := w :: ws } ∧
      t = numberType e.endsInFloat ∧ (t = numberType e.hasFloat ↔ (e.hasFloat = true → e.endsInFloat = true)) := by
  obtain ⟨⟨t, x⟩, s', read, rfl, hview, -⟩ :=
    expression_reads (sums_read n) e hn quiet h hw.endsExpression hline s rfl
  refine ⟨_, x, s', read, hview, rfl, ?_⟩
  have ends := e.hasFloat_of_ends
  revert ends
  cases e.endsInFloat <;> cases e.hasFloat <;> decide

/-- A whole number and a sum with a float at its end. -/
def endsFloating : Arithmetic true :=
  .more (.number false "1") .times (.last (.group (.more (.number false "2") .minus (.last (.number true ".5")))))

theorem endsFloating_typed : ∃ x s', expression Collect.writer (rules Collect.writer 7)
    (atWords {} "A" (endsFloating.words ++ [(.lineEnd, "0")])) = .ok (some "float", x) s' := by
  obtain ⟨t, x, s', read, -, rfl, -⟩ := arithmetic_typed_by_last endsFloating 7 (by decide)
    (atWords {} "A" (endsFloating.words ++ [(.lineEnd, "0")])) (Collect.quiet _)
    (.lineEnd, "0") [] rfl (.lineEnd 0) nofun
  exact ⟨x, s', read⟩

/-- A float before a whole number is not seen. -/
theorem float_before_int_missed : ∃ x s', expression Collect.writer (rules Collect.writer 3)
    (atWords {} "A" [(.float, "1.5"), (.arithmetic, "+"), (.int, "1"), (.lineEnd, "0")]) = .ok (some "int", x) s' :=
  ⟨_, _, rfl⟩

end GdScribe
