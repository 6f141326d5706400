import GdScribe.Proofs.Token.Spaced

/-!
# Operators between operands

An operator that compares takes the character after it with it, unless that is a letter or a digit: then it is not read
at all. So it matters for such an operator whether a blank stands behind it.

* `signs`: the operators that are no words.
* `IsOperand`: names and decimal integers.
* `wordsOf`: the words of a text.

Principal result: `operator_spacing_iff`.
-/

namespace GdScribe.Scan

open List

/-- Operators with two operands that are no words. An arithmetic one may have the `=` of an assignment. -/
def signs : List String :=
  comparisonOperators.filter (· ∉ ["and", "or"]) ++ arithmeticOperators ++ arithmeticOperators.map (· ++ "=")

/-- The characters of operators. -/
def signChars : List Char := ['<', '>', '*', '+', '-', '/', '%', '&', '^', '|', '=', '!']

/-- A name that starts with no operator, or a decimal integer. -/
def IsOperand (x : String) : Prop :=
  (IsName x ∧ ∀ w ∈ ["not", "and", "or"], ¬ w.toList <+: x.toList) ∨ x ≠ "" ∧ ∀ c ∈ x.toList, c.isDigit = true

def operand (x : String) : Word := (if x.toList.head?.any isNameStart then .text else .int, x)

def sign (op : String) : Word := (if op ∈ comparisonOperators then .comparison else .arithmetic, op)

def wordsOf (cs : List Char) : List Word := wordsFrom 1 0 cs

variable {x op : String} {c d : Char} {l r t : List Char}

/-! ## Words of a text -/

/-- The words of a text are the same wherever it stands. -/
theorem wordsFrom_eq_wordsOf (line pos : Nat) (cs : List Char) : wordsFrom line pos cs = wordsOf cs := by
  have same {p q : Piece} (h : Moved p q) : p.token?.map Token.word = q.token?.map Token.word := by
    unfold Piece.token?
    rw [h.kind, h.source]
    cases q.kind <;> rfl
  unfold wordsOf wordsFrom
  rw [map_filterMap, map_filterMap]
  have moved := piecesFrom_moved cs 0 line pos 1 0
  generalize piecesFrom 0 line pos cs = ps, piecesFrom 0 1 0 cs = qs at moved
  induction moved with
  | nil => rfl
  | cons h _ ih => rw [filterMap_cons, filterMap_cons, same h, ih]

theorem wordsOf_token {k : TokenKind} (h : pieceAt c (l ++ r) = (.token k, l.length + 1)) :
    wordsOf (c :: l ++ r) = (k, valueOf k (c :: l)) :: wordsOf r := by
  rw [wordsOf, wordsFrom, piecesFrom_eq h, ← wordsFrom_eq_wordsOf]
  rfl

/-- The piece at the start of a text. -/
def firstPiece : List Char → PieceKind × Nat
  | c :: cs => pieceAt c cs
  | [] => (.stray, 1)

theorem wordsOf_take {k : TokenKind} {n : Nat} {cs : List Char} (h : firstPiece cs = (.token k, n + 1))
    (hn : n + 1 ≤ cs.length) : wordsOf cs = (k, valueOf k (cs.take (n + 1))) :: wordsOf (cs.drop (n + 1)) := by
  cases cs with
  | nil => cases h
  | cons c r =>
    have cut := wordsOf_token (c := c) (l := r.take n) (r := r.drop n) (k := k)
    rw [cons_append, take_append_drop, length_take_of_le (Nat.le_of_succ_le_succ hn)] at cut
    exact cut h

theorem wordsOf_skip {k : PieceKind} (h : pieceAt c r = (k, 1)) (hk : k ∈ [.blank, .stray]) :
    wordsOf (c :: r) = wordsOf r := by
  have cut := piecesFrom_eq (l := []) h 1 0
  rw [wordsOf, wordsFrom, show c :: r = c :: [] ++ r from rfl, cut, ← wordsFrom_eq_wordsOf]
  simp only [mem_cons, not_mem_nil, or_false] at hk
  rcases hk with rfl | rfl <;> rfl

theorem wordsOf_blanks (n : Nat) : wordsOf (replicate n ' ' ++ r) = wordsOf r := by
  induction n with
  | zero => rfl
  | succ n ih => exact (wordsOf_skip rfl (by decide)).trans ih

/-! ## Operands -/

theorem decimal_of_isDigit (h : c.isDigit = true) : CharClass.isDecimal c = true ∧ isNamePart c = true := by
  have part : isNamePart c = true := by simp [isNamePart, Char.isAlphanum, h]
  refine ⟨?_, part⟩
  rw [CharClass.isDecimal, CharClass.test, if_pos (small_of_isNamePart part), h]

theorem IsOperand.opens (h : IsOperand x) : ∃ c cs, x.toList = c :: cs ∧ isNamePart c = true := by
  have first (c : Char) (cs : List Char) (hx : x.toList = c :: cs) : isNamePart c = true := by
    have hc : c ∈ x.toList := hx ▸ mem_cons_self
    exact h.elim (fun h => h.1.2 c hc) fun h => (decimal_of_isDigit (h.2 c hc)).2
  obtain ⟨c, cs, hx⟩ : ∃ c cs, x.toList = c :: cs := exists_cons_of_ne_nil fun hx => by
    rcases h with h | h
    · simpa [hx] using h.1.1
    · exact h.1 (String.toList_eq_nil_iff.mp hx)
  exact ⟨c, cs, hx, first c cs hx⟩

theorem wordsOf_operand (h : IsOperand x) (ends : ∀ d, r.head? = some d → d ∈ ' ' :: signChars) :
    wordsOf (x.toList ++ r) = operand x :: wordsOf r := by
  have all : ∀ d ∈ ' ' :: signChars,
      isNamePart d = false ∧ CharClass.isDecimal d = false ∧ d ∉ ['.', 'x', 'X'] := by decide
  obtain ⟨c, cs, hx, -⟩ := h.opens
  rcases h with ⟨name, free⟩ | ⟨-, digits⟩
  · have words : x ∉ ["not", "and", "or"] := fun hx => free x hx (prefix_refl _)
    rw [operand, if_pos name.1]
    exact (wordsFrom_name name words (fun d hd => (all d (ends d hd)).1) 1 0 _).mpr
      ⟨free "not" (by simp), wordsFrom_eq_wordsOf ..⟩
  · rw [hx] at digits
    have decimal (d : Char) (hd : d ∈ c :: cs) := (decimal_of_isDigit (digits d hd)).1
    have letter : isNameStart c = false := Bool.eq_false_iff.mpr fun hs => by
      have := not_decimal_of_isNameStart hs
      rw [decimal c mem_cons_self] at this
      cases this
    have value : valueOf .int (c :: cs) = x := by rw [← hx]; exact String.ofList_toList
    rw [operand, hx, wordsOf_token (pieceAt_number decimal fun d hd => (all d (ends d hd)).2), value, head?_cons,
      Option.any_some, letter]
    rfl

/-! ## Operators -/

/-- **Behind the characters of operators**, any other one matters by its sort only. -/
theorem pieceAt_signs {e : Char} (hl : c :: l ⊆ signChars) (hd : d ∉ signChars) (he : e ∉ signChars)
    (sort : CharClass.isWord d = CharClass.isWord e) : pieceAt c (l ++ d :: t) = pieceAt c (l ++ [e]) := by
  have arrows : ∀ x ∈ ["->"], x.toList ⊆ signChars := by decide
  have signs : ∀ x ∈ arithmeticOperators, x.toList ⊆ signChars := by decide
  have words : ∀ x ∈ comparisonOperators, x.toList ⊆ signChars ∨ ∃ a ∈ ['a', 'o'], x.toList.head? = some a := by decide
  have later : ∀ c ∈ signChars, ∀ r r' : List Char,
      (shapes.drop 3).map (·.2 (c :: r)) = (shapes.drop 3).map (·.2 (c :: r')) := by
    simp only [signChars, forall_mem_cons]
    iterate 12 refine ⟨fun _ _ => rfl, ?_⟩
    exact forall_mem_nil _
  have free {d : Char} (hd : d ∉ signChars) : d ≠ '=' := by rintro rfl; exact hd (by decide)
  have first : oneOf ["->"] (c :: (l ++ d :: t)) = oneOf ["->"] (c :: (l ++ [e])) :=
    (oneOf_append_cons (fun x hx hm => hd (arrows x hx hm)) (c :: l) t).trans
      (oneOf_append_cons (fun x hx hm => he (arrows x hx hm)) (c :: l) []).symm
  have second : arithmetic (c :: (l ++ d :: t)) = arithmetic (c :: (l ++ [e])) :=
    arithmetic_exchange (fun x hx hm => hd (signs x hx hm)) (fun x hx hm => he (signs x hx hm))
      (iff_of_false (free hd) (free he)) (c :: l) t
  have third : comparison (c :: (l ++ d :: t)) = comparison (c :: (l ++ [e])) := comparison_congr fun x hx => by
    rcases words x hx with sign | ⟨a, ha, head⟩
    · exact comparesWith_exchange (fun hm => hd (sign hm)) (fun hm => he (sign hm)) sort (c :: l) t
    · have other (r : List Char) : ¬ x.toList <+: c :: r := fun ⟨u, hu⟩ => by
        have same := congrArg head? hu
        rw [head?_append, head] at same
        exact (by decide : ∀ a ∈ ['a', 'o'], a ∉ signChars) a ha (Option.some.inj same ▸ hl mem_cons_self)
      rw [ comparesWith_of_not_prefix (other _), comparesWith_of_not_prefix (other _)]
  have all : ∀ s ∈ shapes, s.2 (c :: (l ++ d :: t)) = s.2 (c :: (l ++ [e])) :=
    forall_mem_cons.mpr ⟨first, forall_mem_cons.mpr ⟨second, forall_mem_cons.mpr ⟨third,
      map_inj_left.mp (later c (hl mem_cons_self) _ _)⟩⟩⟩
  unfold pieceAt
  rw [← head?_filterMap, ← head?_filterMap, filterMap_congr fun s hs => by rw [all s hs]]

theorem chars_of_mem_signs (h : op ∈ signs) : ∃ c l, op.toList = c :: l ∧ c :: l ⊆ signChars := by
  have all : ∀ op ∈ signs, op.toList ≠ [] ∧ op.toList ⊆ signChars := by decide +kernel
  obtain ⟨c, l, hc⟩ := exists_cons_of_ne_nil (all op h).1
  exact ⟨c, l, hc, hc ▸ (all op h).2⟩

/-- Before a blank, a parenthesis or a letter an operator is one token. -/
def Single (op : String) (e : Char) : Prop :=
  op ∉ ["||", "&&"] ∧ (op ∈ comparisonOperators → e = ' ' ∨ op ∈ ["<=", ">="] ∧ e ≠ '(')

instance (op : String) (e : Char) : Decidable (Single op e) := inferInstanceAs (Decidable (_ ∧ _))

/-- **Behind an operator** stands a blank, a parenthesis, or a letter for which `x` stands. -/
theorem wordsOf_sign {e : Char} (hop : op ∈ signs) (he : e ∈ [' ', '(', 'x'])
    (hd : d = e ∨ e = 'x' ∧ isNamePart d = true) :
    wordsOf (op.toList ++ d :: t) = sign op :: wordsOf (d :: t) ↔ Single op e := by
  have single : ∀ op ∈ signs, ∀ e ∈ [' ', '(', 'x'], Single op e → ∃ n ∈ [op.length - 1, op.length],
      firstPiece (op.toList ++ [e]) = (.token (sign op).1, n + 1) ∧
        ((sign op).1, valueOf (sign op).1 ((op.toList ++ [e]).take (n + 1))) = sign op ∧
          (n + 1 = op.toList.length ∨ n = op.toList.length ∧ e = ' ') := by decide +kernel
  have other : ∀ op ∈ signs, ∀ e ∈ [' ', '(', 'x'], ¬ Single op e →
      firstPiece (op.toList ++ [e]) = (.stray, 1) ∧ op.toList.length = 1 ∨
        ∃ k ∈ [.arithmetic, .comparison, .unary, .punct '='], ∃ n ∈ [0, op.length],
          firstPiece (op.toList ++ [e]) = (.token k, n + 1) ∧
          (k, valueOf k ((op.toList ++ [e]).take (n + 1))) ≠ sign op ∧
            (n + 1 ≤ op.toList.length ∨ n = op.toList.length ∧ e ≠ 'x') := by decide +kernel
  have free : ∀ e ∈ [' ', '(', 'x'], e ∉ signChars := by decide
  have parts : ∀ c ∈ signChars, isNamePart c = false := by decide
  have piece : firstPiece (op.toList ++ d :: t) = firstPiece (op.toList ++ [e]) := by
    obtain ⟨c, l, hc, signs⟩ := chars_of_mem_signs hop
    rw [hc]
    refine pieceAt_signs signs ?_ (free e he) ?_
    · rcases hd with rfl | ⟨-, part⟩
      · exact free d he
      · exact fun hm => by rw [parts d hm] at part; cases part
    · rcases hd with rfl | ⟨rfl, part⟩
      · rfl
      · exact isWord_of_isNamePart part
  have cut {k : TokenKind} {n : Nat} (token : firstPiece (op.toList ++ [e]) = (.token k, n + 1))
      (hn : n + 1 ≤ op.toList.length ∨ n = op.toList.length ∧ e ≠ 'x') : wordsOf (op.toList ++ d :: t) =
        (k, valueOf k ((op.toList ++ [e]).take (n + 1))) :: wordsOf ((op.toList ++ d :: t).drop (n + 1)) := by
    have taken : (op.toList ++ d :: t).take (n + 1) = (op.toList ++ [e]).take (n + 1) := by
      rcases hn with hn | ⟨rfl, hx⟩
      · rw [take_append_of_le_length hn, take_append_of_le_length hn]
      · simp [take_append, hd.resolve_right fun h => hx h.1]
    rw [← taken]
    exact wordsOf_take (piece.trans token) (by rw [length_append, length_cons]; omega)
  by_cases good : Single op e
  · refine iff_of_true ?_ good
    obtain ⟨n, -, token, value, size | ⟨size, rfl⟩⟩ := single op hop e he good
    · rw [cut token (.inl size.le), value, size, drop_left]
    · obtain rfl : d = ' ' := hd.resolve_right fun h => nomatch h.1
      rw [cut token (.inr ⟨size, by decide⟩), value, size, wordsOf_skip (c := ' ') rfl (by decide)]
      simp [drop_append, drop_eq_nil_of_le]
  · refine iff_of_false (fun same => ?_) good
    rcases other op hop e he good with ⟨stray, one⟩ | ⟨k, -, n, -, token, differs, short⟩
    · obtain ⟨c, hc⟩ := length_eq_one_iff.mp one
      rw [hc] at same piece stray
      rw [singleton_append, wordsOf_skip (r := d :: t) (piece.trans stray) (by decide)] at same
      simp at same
    · exact differs (List.cons.inj ((cut token short).symm.trans same)).1

def blanks (n : Nat) : String := .ofList (replicate n ' ')

/-- The parenthesis that may stand before an operand. -/
def opening (opened : Bool) : String := if opened then "(" else ""

def openingWords (opened : Bool) : List Word := if opened then [(.punct '(', "(")] else []

theorem wordsOf_opening (opened : Bool) :
    wordsOf ((opening opened).toList ++ r) = openingWords opened ++ wordsOf r := by
  cases opened
  · rfl
  · exact wordsOf_token (l := []) (k := .punct '(') rfl

/-- **Which operators are one token.** Between names or decimal integers, with any number of blanks before and behind:
an arithmetic operator always is; `||` and `&&` never are; one that compares is, if a blank stands behind it. Without a
blank, only `<=` and `>=` are, if no parenthesis follows. -/
theorem operator_spacing_iff {a b op : String} (ha : IsOperand a) (hb : IsOperand b) (hop : op ∈ signs)
    (before behind : Nat) (opened : Bool) :
    (tokens (a ++ blanks before ++ op ++ blanks behind ++ opening opened ++ b)).map Token.word =
      operand a :: sign op :: (openingWords opened ++ [operand b]) ↔
    op ∉ ["||", "&&"] ∧ (op ∈ comparisonOperators → behind ≠ 0 ∨ op ∈ ["<=", ">="] ∧ opened = false) := by
  have last : wordsOf b.toList = [operand b] := by
    have cut := wordsOf_operand (r := []) hb nofun
    rw [append_nil] at cut
    exact cut
  have ends (n : Nat) (r : List Char) :
      ∀ d, (replicate n ' ' ++ (op.toList ++ r)).head? = some d → d ∈ ' ' :: signChars := by
    intro d hd
    cases n with
    | succ n => exact Option.some.inj hd ▸ mem_cons_self
    | zero =>
      obtain ⟨c, l, hc, chars⟩ := chars_of_mem_signs hop
      rw [hc] at hd
      exact .tail _ (Option.some.inj hd ▸ chars mem_cons_self)
  have text : (a ++ blanks before ++ op ++ blanks behind ++ opening opened ++ b).toList =
      a.toList ++ (replicate before ' ' ++ (op.toList ++
        (replicate behind ' ' ++ ((opening opened).toList ++ b.toList)))) := by
    simp [blanks]
  obtain ⟨d, t, hd, letter⟩ := hb.opens
  show wordsOf _ = _ ↔ _
  rw [text, wordsOf_operand ha (ends _ _), wordsOf_blanks, List.cons.injEq, and_iff_right rfl, ← last,
    ← wordsOf_opening]
  cases behind with
  | succ n =>
    rw [← wordsOf_blanks (r := (opening opened).toList ++ b.toList) (n + 1)]
    refine (wordsOf_sign (e := ' ') hop (by decide) (.inl rfl)).trans ?_
    simp [Single]
  | zero =>
    cases opened
    · rw [hd]
      refine (wordsOf_sign (e := 'x') hop (by decide) (.inr ⟨rfl, letter⟩)).trans ?_
      simp [Single]
    · refine (wordsOf_sign (e := '(') hop (by decide) (.inl rfl)).trans ?_
      simp [Single]

theorem compound_one_token : (tokens ("x1" ++ blanks 0 ++ "<<=" ++ blanks 0 ++ opening true ++ "07")).map Token.word =
    [(.text, "x1"), (.arithmetic, "<<="), (.punct '(', "("), (.int, "07")] :=
  (operator_spacing_iff (.inl (by decide)) (.inr (by decide)) (by decide +kernel) 0 0 true).mpr (by decide)

/-- Without a blank behind it, an operator that compares is left out. -/
theorem tight_less_left_out : (tokens "a<b").map Token.word = [(.text, "a"), (.text, "b")] ∧
    (tokens "a < b").map Token.word = [(.text, "a"), (.comparison, "<"), (.text, "b")] := by decide +kernel

end GdScribe.Scan
