import GdScribe.Proofs.Text.Replace
import GdScribe.Proofs.Token.Lexing
import Mathlib.Data.List.Find
import Mathlib.Data.List.Infix
import Mathlib.Data.List.TakeWhile

/-!
# Other contents between the same quotes

A text in which a string literal gets other contents is cut into the same pieces, up to that literal.

* `StopsAt`: shapes that see nothing behind a quote.
* `Enclosable`: contents that quotes can enclose.
* `Apart`: empty contents bring no three double quotes together.

Principal result: `piecesFrom_exchange`. Comments, texts between triple quotes and other string
literals look far ahead; none of them starts before the literal and is changed by its contents.
-/

namespace GdScribe.Scan

open List

/-- The marks around a string literal. -/
def quotes : List Char := ['"', '\'']

/-! ## Starts and parts of texts -/

section Parts

variable {w u a b : List Char} {q : Char}

theorem infix_append_cons (h : q ∉ w) (hi : w <:+: a ++ q :: b) : w <:+: a ∨ w <:+: b := by
  induction a with
  | nil =>
    rcases infix_cons_iff.mp hi with hp | hi
    · exact .inl ((Text.prefix_append_cons_iff h b).mp hp).isInfix
    · exact .inr hi
  | cons x a ih =>
    rcases infix_cons_iff.mp hi with hp | hi
    · exact .inl ((Text.prefix_append_cons_iff h b).mp hp).isInfix
    · exact (ih hi).imp_left infix_cons

/-- A part that has no character with some text stands behind that text. -/
theorem infix_of_infix_append (hw : w ≠ []) (h : ∀ c ∈ a, c ∉ w) (hi : w <:+: a ++ b) : w <:+: b := by
  induction a with
  | nil => exact hi
  | cons c a ih =>
    rcases infix_append_cons (a := []) (h c mem_cons_self) hi with hn | hi
    · exact absurd (infix_nil.mp hn) hw
    · exact ih (fun d hd => h d (mem_cons_of_mem c hd)) hi

theorem run_append_cons {p : Char → Bool} (hq : p q = false) (r : List Char) : run p (u ++ q :: r) = run p u := by
  unfold run
  induction u with
  | nil => simp [hq]
  | cons c u ih =>
    cases hc : p c <;> simp [hc]
    simpa using ih

theorem run_le (p : Char → Bool) (cs : List Char) : run p cs ≤ cs.length := ( takeWhile_prefix p).length_le

end Parts

/-! ## Shapes that see nothing behind a quote -/

/-- What stands behind a `q` makes no difference to a shape. -/
def StopsAt (q : Char) (f : List Char → Option Nat) : Prop := ∀ u r, f (u ++ q :: r) = f (u ++ [q])

variable {u : List Char}

section Stops

variable {q : Char}

variable {heads : List String}

theorem oneOf_append_cons (h : ∀ x ∈ heads, q ∉ x.toList) (u r : List Char) :
    oneOf heads (u ++ q :: r) = oneOf heads u := by
  unfold oneOf
  congr 1
  exact find?_congr fun x hx => Text.isPrefixOf_append_cons (h x hx) u r

theorem stopsAt_oneOf (h : ∀ x ∈ heads, q ∉ x.toList) : StopsAt q (oneOf heads) := fun u r => by
  rw [oneOf_append_cons h, oneOf_append_cons h]

theorem oneOf_eq_some {cs : List Char} {n : Nat} (h : oneOf heads cs = some n) :
    ∃ x ∈ heads, n = x.length ∧ x.toList <+: cs := by
  obtain ⟨x, hx, rfl⟩ := Option.map_eq_some_iff.mp h
  have found : x.toList.isPrefixOf cs = true := by simpa using find?_some hx
  exact ⟨x, mem_of_find?_eq_some hx, rfl, isPrefixOf_iff_prefix.mp found⟩

theorem oneOf_le {n : Nat} (h : oneOf heads u = some n) : n ≤ u.length := by
  obtain ⟨x, -, rfl, hp⟩ := oneOf_eq_some h
  exact String.length_toList ▸ hp.length_le

/-- Behind an operator, a character matters only if it is a `=`. -/
theorem arithmetic_exchange {d : Char} (hq : ∀ x ∈ arithmeticOperators, q ∉ x.toList)
    (hd : ∀ x ∈ arithmeticOperators, d ∉ x.toList) (same : q = '=' ↔ d = '=') (u r : List Char) :
    arithmetic (u ++ q :: r) = arithmetic (u ++ [d]) := by
  unfold arithmetic
  rw [oneOf_append_cons hq, oneOf_append_cons hd]
  cases hn : oneOf arithmeticOperators u with
  | none => rfl
  | some n =>
    have next : (u ++ q :: r)[n]? = some '=' ↔ (u ++ [d])[n]? = some '=' := by
      rcases (oneOf_le hn).lt_or_eq with hlt | rfl
      · rw [getElem?_append_left hlt, getElem?_append_left hlt]
      · simpa using same
    simp only [Option.map_some, next]

/-- Behind an operator that compares, the sort of a character matters. -/
theorem comparesWith_exchange {d : Char} {x : String} (hq : q ∉ x.toList) (hd : d ∉ x.toList)
    (sort : CharClass.isWord q = CharClass.isWord d) (u r : List Char) :
    comparesWith (u ++ q :: r) x = comparesWith (u ++ [d]) x := by
  unfold comparesWith
  rw [Text.isPrefixOf_append_cons hq, Text.isPrefixOf_append_cons hd]
  by_cases hp : x.toList.isPrefixOf u = true
  · have hl := String.length_toList ▸ ( isPrefixOf_iff_prefix.mp hp).length_le
    rcases hl.lt_or_eq with hlt | he
    · rw [getElem?_append_left hlt, getElem?_append_left hlt]
    · simp [he, sort]
  · rw [Bool.not_eq_true] at hp
    rw [hp, Bool.false_and, Bool.false_and]

theorem comparison_congr {cs ds : List Char} (h : ∀ x ∈ comparisonOperators, comparesWith cs x = comparesWith ds x) :
    comparison cs = comparison ds := by
  unfold comparison
  rw [find?_congr h]

theorem stopsAt_text (h : isNamePart q = false) : StopsAt q text := by
  intro u r
  cases u with
  | nil =>
    have hs : isNameStart q = false := by
      rw [← Bool.not_eq_true]
      intro hs
      rw [isNamePart_of_isNameStart hs] at h
      cases h
    simp [text, hs]
  | cons c u => simp only [cons_append, text, run_append_cons h]

theorem stopsAt_float (h : CharClass.isDecimal q = false) (hq : q ≠ '.') : StopsAt q float := by
  intro u r
  unfold float
  rw [run_append_cons h, run_append_cons h]
  have hn : run CharClass.isDecimal u ≤ u.length := run_le ..
  generalize run CharClass.isDecimal u = n at hn
  dsimp only
  have next : (u ++ q :: r)[n]? = (u ++ [q])[n]? := by rw [append_cons, getElem?_append_left (by simp; omega)]
  rw [next]
  by_cases hlt : n < u.length
  · have rest (v : List Char) : (u ++ q :: v).drop (n + 1) = u.drop (n + 1) ++ q :: v := by
      rw [drop_append_of_le_length hlt]
    rw [rest, rest, run_append_cons h, run_append_cons h]
  · have last : (u ++ [q])[n]? = some q := by
      rw [show n = u.length by omega]
      simp
    rw [last, if_neg (by simpa using hq), if_neg (by simpa using hq)]

theorem stopsAt_hex (h : isHexDigit q = false) (hq : q ∉ ['0', 'x', 'X']) : StopsAt q hex := by
  intro u r
  simp only [mem_cons, not_mem_nil, or_false, not_or] at hq
  by_cases hu : ∃ v, u = '0' :: v
  · obtain ⟨_ | ⟨x, v⟩, rfl⟩ := hu
    · simp [hex, hq.2.1, hq.2.2]
    · simp only [cons_append, hex, run_append_cons h]
  · unfold hex
    rcases u with _ | ⟨c, _ | ⟨x, u⟩⟩ <;> split <;> split <;> simp_all

theorem stopsAt_int (h : CharClass.isDecimal q = false) : StopsAt q int := by
  intro u r
  unfold int
  rw [run_append_cons h, run_append_cons h]

theorem stopsAt_joint (h : q ∉ ['\\', '\n', '\t']) : StopsAt q joint := by
  intro u r
  simp only [mem_cons, not_mem_nil, or_false, not_or] at h
  have tab : (q == '\t') = false := by simpa using h.2.2
  by_cases hu : ∃ v, u = '\\' :: '\n' :: v
  · obtain ⟨v, rfl⟩ := hu
    simp only [cons_append, joint]
    rw [run_append_cons (p := (· == '\t')) tab, run_append_cons (p := (· == '\t')) tab]
  · unfold joint
    rcases u with _ | ⟨c, _ | ⟨x, u⟩⟩ <;> split <;> split <;> simp_all

theorem stopsAt_lineEnd (h : q ∉ ['\n', '\t']) : StopsAt q lineEnd := by
  intro u r
  simp only [mem_cons, not_or] at h
  have tab : (q == '\t') = false := by simpa using h.2
  by_cases hu : ∃ v, u = '\n' :: v
  · obtain ⟨v, rfl⟩ := hu
    simp only [cons_append, lineEnd]
    rw [run_append_cons (p := (· == '\t')) tab, run_append_cons (p := (· == '\t')) tab]
  · unfold lineEnd
    rcases u with _ | ⟨c, u⟩ <;> split <;> split <;> simp_all

/-- The shapes that see nothing behind a quote, with none for the quote itself. -/
theorem stopsAt_quote {q : Char} (hq : q ∈ quotes) :
    ∀ f ∈ [oneOf ["->"], arithmetic, comparison, oneOf unaryOperators, text, float, hex, int, joint,
      lineEnd], StopsAt q f ∧ f [q] = none := by
  have alone : ∀ q ∈ quotes, ∀ f ∈ [oneOf ["->"], arithmetic, comparison, oneOf unaryOperators, text, float, hex,
      int, joint, lineEnd], f [q] = none := by decide
  refine fun f hf => ⟨?_, alone q hq f hf⟩
  revert f
  simp only [forall_mem_cons, not_mem_nil, IsEmpty.forall_iff, implies_true, and_true]
  simp only [quotes, mem_cons, not_mem_nil, or_false] at hq
  rcases hq with rfl | rfl
  all_goals
    exact ⟨stopsAt_oneOf (by decide), arithmetic_exchange (by decide) (by decide) .rfl,
      fun u r => comparison_congr fun x hx => comparesWith_exchange (by revert x; decide) (by revert x; decide) rfl u r,
      stopsAt_oneOf (by decide), stopsAt_text rfl, stopsAt_float (by decide) (by decide), stopsAt_hex rfl (by decide),
      stopsAt_int (by decide), stopsAt_joint (by decide), stopsAt_lineEnd (by decide)⟩

end Stops

/-! ## Shapes that look far ahead -/

/-- A shape does not tell two continuations of `u` apart, unless it reaches beyond `u`. -/
def Blind (f : List Char → Option Nat) (u x y : List Char) : Prop :=
  f (u ++ y) = f (u ++ x) ∨ ∃ n, f (u ++ x) = some n ∧ u.length < n

/-- Contents without quotes, backslashes and line ends. -/
def Enclosable (cs : List Char) : Prop := ∀ c ∈ cs, c ∉ quotes ∧ c ≠ '\\' ∧ c ≠ '\n'

instance (cs : List Char) : Decidable (Enclosable cs) := inferInstanceAs (Decidable (∀ c ∈ cs, _))

/-- Contents between quotes bring no three double quotes together: they are not empty, or there is no
double quote on either side. -/
def Apart (q : Char) (u new after : List Char) : Prop :=
  new ≠ [] ∨ q ≠ '"' ∨ u.getLast? ≠ some '"' ∧ after.head? ≠ some '"'

instance (q : Char) (u new after : List Char) : Decidable (Apart q u new after) :=
  inferInstanceAs (Decidable (_ ∨ _ ∨ _ ∧ _))

theorem blind_comment {q : Char} (hq : q ≠ '\n') (u x y : List Char) (hu : u ≠ []) :
    Blind comment u (q :: x) (q :: y) := by
  obtain ⟨c, u, rfl⟩ := exists_cons_of_ne_nil hu
  by_cases hc : c = '#'
  · subst hc
    simp only [Blind, cons_append, comment]
    by_cases hn : '\n' ∈ u
    · obtain ⟨a, b, rfl⟩ := append_of_mem hn
      left
      have stop : ('\n' != '\n') = false := rfl
      simp only [append_assoc, cons_append]
      rw [run_append_cons (p := (· != '\n')) stop, run_append_cons (p := (· != '\n')) stop]
    · right
      have all : ∀ d ∈ u ++ [q], (d != '\n') = true := by
        intro d hd
        rcases mem_append.mp hd with hd | hd
        · exact bne_iff_ne.mpr fun h => hn (h ▸ hd)
        · exact bne_iff_ne.mpr (mem_singleton.mp hd ▸ hq)
      unfold run
      rw [append_cons, takeWhile_append_of_pos all]
      simp
      omega
  · left
    unfold comment
    split <;> split <;> simp_all

/-! ### Three double quotes -/

/-- Three double quotes. -/
def tripleQuote : List Char := ['"', '"', '"']

variable {cs : List Char}

theorem longStringEnd_eq_none_iff : longStringEnd cs = none ↔ ¬ tripleQuote <:+: cs := by
  induction cs with
  | nil => simp [longStringEnd, tripleQuote]
  | cons c cs ih =>
    rw [longStringEnd, infix_cons_iff, not_or, ← ih, ← isPrefixOf_iff_prefix]
    unfold tripleQuote
    split
    · simp [*]
    · simp [*]

theorem isPrefixOf_append {w : List Char} (h : w.length ≤ u.length) (r : List Char) :
    w.isPrefixOf (u ++ r) = w.isPrefixOf u := by
  rw [Bool.eq_iff_iff, isPrefixOf_iff_prefix, isPrefixOf_iff_prefix]
  exact ⟨fun hp => prefix_of_prefix_length_le hp (prefix_append u r) h,
    fun hp => hp.trans (prefix_append u r)⟩

variable {n line pos l : Nat}

theorem longStringEnd_bounds (h : longStringEnd cs = some n) : 3 ≤ n ∧ n ≤ cs.length := by
  induction cs generalizing n with
  | nil => cases h
  | cons c cs ih =>
    rw [longStringEnd] at h
    split at h
    · next hp =>
      cases h
      exact ⟨le_refl 3, ( isPrefixOf_iff_prefix.mp hp).length_le⟩
    · obtain ⟨k, hk, rfl⟩ := Option.map_eq_some_iff.mp h
      exact ⟨Nat.le_succ_of_le (ih hk).1, Nat.succ_le_succ (ih hk).2⟩

variable {m : List Char}

/-- Three double quotes in the common start are found in every continuation of it. -/
theorem longStringEnd_append (x y : List Char)
    (h : longStringEnd (m ++ x) = some n) (hn : n ≤ m.length) : longStringEnd (m ++ y) = some n := by
  induction m generalizing n with
  | nil =>
    have := (longStringEnd_bounds h).1
    simp only [length_nil] at hn
    omega
  | cons c m ih =>
    have far := (longStringEnd_bounds h).1
    have same (r : List Char) : tripleQuote.isPrefixOf (c :: (m ++ r)) = tripleQuote.isPrefixOf (c :: m) :=
      isPrefixOf_append (le_trans far hn) r
    unfold tripleQuote at same
    rw [cons_append, longStringEnd, same] at h ⊢
    split at h
    · rw [if_pos ‹_›]
      exact h
    · rw [if_neg ‹_›]
      obtain ⟨k, hk, rfl⟩ := Option.map_eq_some_iff.mp h
      rw [ih hk (Nat.le_of_succ_le_succ hn)]
      rfl

section Literal

variable {q : Char} {old new after : List Char}

theorem Enclosable.not_mem_tripleQuote (hnew : Enclosable new) : ∀ c ∈ new, c ∉ tripleQuote := by
  intro c hc hd
  have : c = '"' := by simpa [tripleQuote] using hd
  exact (hnew c hc).1 (this ▸ by decide)

theorem tripleQuote_of_other (hnew : Enclosable new) (ha : Apart q m new after)
    (h : tripleQuote <:+: m ++ q :: (new ++ q :: after)) :
    tripleQuote <:+: m ++ q :: (old ++ q :: after) := by
  have before : tripleQuote <:+: m ++ [q] → tripleQuote <:+: m ++ q :: (old ++ q :: after) := fun h =>
    h.trans ⟨[], old ++ q :: after, by simp⟩
  have behind : tripleQuote <:+: q :: after → tripleQuote <:+: m ++ q :: (old ++ q :: after) := fun h =>
    h.trans ⟨m ++ q :: old, [], by simp⟩
  have clear := hnew.not_mem_tripleQuote
  by_cases hne : new = []
  · subst hne
    by_cases hd : q = '"'
    · subst hd
      have ⟨hm, hafter⟩ : m.getLast? ≠ some '"' ∧ after.head? ≠ some '"' := by
        rcases ha with ha | ha | ha
        · exact absurd rfl ha
        · exact absurd rfl ha
        · exact ha
      -- a double quote on neither side: what stands there is cut off from the two in the middle
      have short : ¬ tripleQuote <:+: ['"', '"'] := fun h => absurd h.length_le nofun
      have right (h : tripleQuote <:+: ['"', '"'] ++ after) : tripleQuote <:+: after := by
        cases after with
        | nil => exact absurd h short
        | cons d after =>
          have hd : d ∉ tripleQuote := fun h => hafter (by simpa [tripleQuote] using h)
          exact ((infix_append_cons hd h).resolve_left short).trans (infix_cons infix_rfl)
      rcases eq_nil_or_concat' m with rfl | ⟨m, c, rfl⟩
      · exact behind ((right h).trans (infix_cons infix_rfl))
      · have hc : c ∉ tripleQuote := fun h => hm (by simpa [tripleQuote] using h)
        rw [append_assoc] at h
        rcases infix_append_cons hc h with h | h
        · exact before (h.trans ⟨[], [c] ++ ['"'], by simp⟩)
        · exact behind ((right h).trans (infix_cons infix_rfl))
    · have hd' : q ∉ tripleQuote := fun h => hd (by simpa [tripleQuote] using h)
      rcases infix_append_cons hd' h with h | h
      · exact before (h.trans (prefix_append m [q]).isInfix)
      · exact behind h
  · obtain ⟨c, cs, rfl⟩ := exists_cons_of_ne_nil hne
    rw [append_cons] at h
    rcases infix_append_cons (clear c mem_cons_self) h with h | h
    · exact before h
    · exact behind (infix_of_infix_append nofun (fun d hd => clear d (mem_cons_of_mem c hd)) h)

theorem Apart.drop (h : Apart q u new after) (n : Nat) : Apart q (u.drop n) new after := by
  refine h.imp_right (Or.imp_right fun h => ⟨fun hl => h.1 ?_, h.2⟩)
  rw [getLast?_drop] at hl
  split at hl
  · cases hl
  · exact hl

/-- **Triple quotes.** A text between them that starts before a literal ends before it, or reaches
into it, or has no end whatever the literal's contents are. -/
theorem blind_longString (hnew : Enclosable new) (ha : Apart q u new after) (hu : u ≠ [])
    (hpair : ¬ (u = ['"'] ∧ q = '"')) :
    Blind longString u (q :: (old ++ q :: after)) (q :: (new ++ q :: after)) := by
  rcases u with _ | ⟨a, _ | ⟨b, _ | ⟨c, u⟩⟩⟩
  · exact absurd rfl hu
  · left
    have absent (r : List Char) : ['"', '"', '"'].isPrefixOf (a :: q :: r) = false := by
      by_cases h : a = '"'
      · have : q ≠ '"' := fun hq => hpair ⟨by rw [h], hq⟩
        simp [isPrefixOf, Ne.symm this]
      · simp [isPrefixOf, Ne.symm h]
    simp [longString, absent]
  · by_cases hp : a = '"' ∧ b = '"' ∧ q = '"'
    · obtain ⟨rfl, rfl, rfl⟩ := hp
      have start (r : List Char) : longString ('"' :: '"' :: '"' :: r) = (longStringEnd r).map (· + 3) := by
        simp [longString]
      simp only [Blind, cons_append, nil_append, start]
      cases hl : longStringEnd (old ++ '"' :: after) with
      | some n => exact .inr ⟨_, rfl, by simp⟩
      | none =>
        rw [longStringEnd_eq_none_iff] at hl
        have none_new : longStringEnd (new ++ '"' :: after) = none := by
          rw [longStringEnd_eq_none_iff]
          intro h
          exact hl ((infix_of_infix_append (by decide) hnew.not_mem_tripleQuote h).trans (suffix_append ..).isInfix)
        exact .inl (by rw [none_new])
    · left
      have absent (r : List Char) : ['"', '"', '"'].isPrefixOf (a :: b :: q :: r) = false := by
        rw [← Bool.not_eq_true]
        intro h
        simp only [isPrefixOf, Bool.and_eq_true, beq_iff_eq, and_true] at h
        exact hp ⟨h.1.symm, h.2.1.symm, h.2.2.symm⟩
      simp [longString, absent]
  · unfold Blind longString
    have same (r : List Char) : ['"', '"', '"'].isPrefixOf (a :: b :: c :: u ++ r) =
        ['"', '"', '"'].isPrefixOf (a :: b :: c :: u) := isPrefixOf_append (by simp) r
    rw [same, same]
    split
    · simp only [cons_append, drop_succ_cons, drop_zero]
      cases hl : longStringEnd (u ++ q :: (old ++ q :: after)) with
      | some n =>
        by_cases hn : n ≤ u.length
        · exact .inl (by rw [longStringEnd_append _ _ hl hn])
        · exact .inr ⟨_, rfl, by simp; omega⟩
      | none =>
        rw [longStringEnd_eq_none_iff] at hl
        have none_new : longStringEnd (u ++ q :: (new ++ q :: after)) = none :=
          longStringEnd_eq_none_iff.mpr fun h => hl (tripleQuote_of_other hnew (ha.drop 3) h)
        exact .inl (by rw [none_new])
    · exact .inl rfl

/-- A start of a text settles where a string ends, or has a line end before that, or leaves it to
what follows. -/
theorem stringEnd_append (quote before : Char) (u : List Char) :
    (∃ n, ∀ r, stringEnd quote before (u ++ r) = some n) ∨ ('\n' ∈ u ∧ ∀ r, stringEnd quote before (u ++ r) = none) ∨
      ∀ r, stringEnd quote before (u ++ r) = (stringEnd quote (u.getLastD before) r).map (· + u.length) := by
  induction u generalizing before with
  | nil => right; right; intro r; simp
  | cons c u ih =>
    simp only [cons_append, stringEnd, getLastD_cons]
    split
    · exact .inl ⟨1, fun _ => rfl⟩
    · split
      · exact .inr (.inl ⟨by simp [*], fun _ => rfl⟩)
      · rcases ih c with ⟨n, h⟩ | ⟨hn, h⟩ | h
        · exact .inl ⟨n + 1, fun r => by rw [h r]; rfl⟩
        · exact .inr (.inl ⟨mem_cons_of_mem c hn, fun r => by rw [h r]; rfl⟩)
        · right
          right
          intro r
          rw [h r, Option.map_map]
          rfl

variable {quote : Char}

theorem stringEnd_bounds {before : Char} (h : stringEnd quote before cs = some n) :
    0 < n ∧ n ≤ cs.length ∧ (quote ≠ '\n' → '\n' ∉ cs.take n) := by
  induction cs generalizing before n with
  | nil => cases h
  | cons c cs ih =>
    rw [stringEnd] at h
    split at h
    · rename_i hc
      cases h
      exact ⟨Nat.one_pos, Nat.succ_pos _, fun hq => by simpa using fun h => hq (hc.1.symm.trans h.symm)⟩
    · split at h
      · cases h
      · obtain ⟨k, hk, rfl⟩ := Option.map_eq_some_iff.mp h
        obtain ⟨-, le, oneLine⟩ := ih hk
        rename_i hc
        rw [take_succ_cons, mem_cons, not_or]
        exact ⟨Nat.succ_pos k, Nat.succ_le_succ le, fun hq => ⟨fun h => hc h.symm, oneLine hq⟩⟩

theorem ne_lineEnd_of_quotes (hq : q ∈ quotes) : q ≠ '\n' := by
  rintro rfl
  revert hq
  decide

theorem stringEnd_enclosable (hq : quote ∈ quotes) (hnew : Enclosable new)
    (before : Char) (r : List Char) : stringEnd quote before (new ++ r) =
      (stringEnd quote (new.getLastD before) r).map (· + new.length) := by
  induction new generalizing before with
  | nil => simp
  | cons c cs ih =>
    obtain ⟨hc, -, hn⟩ := hnew c mem_cons_self
    have hcq : c ≠ quote := fun h => hc (h ▸ hq)
    rw [cons_append, stringEnd, if_neg fun h => hcq h.1, if_neg hn,
      ih (fun d hd => hnew d (mem_cons_of_mem c hd)), getLastD_cons, Option.map_map]
    rfl

/-- A quote that stays unclosed on a line with a literal is of the other kind, and stays unclosed for
other contents of the literal. -/
theorem stringEnd_unclosed {c before : Char} (hq : q ∈ quotes) (hc : c ∈ quotes) (hnew : Enclosable new)
    (hold : stringEnd q q (old ++ q :: after) = some (old.length + 1))
    (h : stringEnd c before (q :: (old ++ q :: after)) = none) :
    stringEnd c before (q :: (new ++ q :: after)) = none := by
  have hqn := ne_lineEnd_of_quotes hq
  have oneLine : '\n' ∉ old := by
    have := (stringEnd_bounds hold).2.2 hqn
    rw [append_cons, take_append_of_le_length (by simp)] at this
    exact fun hn => this (by simp [take_of_length_le, hn])
  by_cases hqc : q = c ∧ before ≠ '\\'
  · rw [stringEnd, if_pos hqc] at h
    cases h
  · rw [stringEnd, if_neg hqc, if_neg hqn] at h ⊢
    have hne : q ≠ c := by
      rintro rfl
      rw [hold] at h
      cases h
    have pass (b : Char) : stringEnd c b (q :: after) = (stringEnd c q after).map (· + 1) := by
      rw [stringEnd, if_neg fun h => hne h.1, if_neg hqn]
    rw [stringEnd_enclosable hc hnew, pass, Option.map_eq_none_iff, Option.map_eq_none_iff]
    rcases stringEnd_append c q old with ⟨n, hs⟩ | ⟨hn, -⟩ | hs
    · rw [hs] at h
      cases h
    · exact absurd hn oneLine
    · rw [hs, pass, Option.map_eq_none_iff, Option.map_eq_none_iff] at h
      exact h

/-- **Other strings.** A string that starts before a literal ends before it, or reaches into it, or
has no end on its line whatever the literal's contents are. -/
theorem blind_string (hq : q ∈ quotes) (hnew : Enclosable new)
    (hold : stringEnd q q (old ++ q :: after) = some (old.length + 1)) (hu : u ≠ []) :
    Blind string u (q :: (old ++ q :: after)) (q :: (new ++ q :: after)) := by
  obtain ⟨c, u, rfl⟩ := exists_cons_of_ne_nil hu
  simp only [Blind, cons_append, string]
  by_cases hc : c = '"' ∨ c = '\''
  · rw [if_pos hc, if_pos hc]
    have hcq : c ∈ quotes := by simpa [quotes] using hc
    rcases stringEnd_append c c u with ⟨n, h⟩ | ⟨-, h⟩ | h
    · exact .inl (by rw [h, h])
    · exact .inl (by rw [h, h])
    · rw [h, h]
      cases ho : stringEnd c (u.getLastD c) (q :: (old ++ q :: after)) with
      | some n =>
        have := (stringEnd_bounds ho).1
        exact .inr ⟨_, rfl, by simp; omega⟩
      | none => exact .inl (by rw [stringEnd_unclosed hq hcq hnew hold ho])
  · exact .inl (by rw [if_neg hc, if_neg hc])

/-! ## Pieces -/

theorem pieceAt_quote (hq : q ∈ quotes) (r : List Char) : pieceAt q r = match longString (q :: r) with
      | some n => (.token .longString, n)
      | none => match string (q :: r) with
        | some n => (.token .string, n)
        | none => (.stray, 1) := by
  have small : ∀ q ∈ quotes, isSpace q = false ∧ punctuation.contains q = false ∧ q ≠ '#' := by decide
  obtain ⟨hs, hp, hh⟩ := small q hq
  have none_of {f : List Char → Option Nat} (hf : StopsAt q f ∧ f [q] = none) : f (q :: r) = none :=
    (hf.1 [] r).trans hf.2
  have all := stopsAt_quote hq
  simp only [forall_mem_cons, not_mem_nil, IsEmpty.forall_iff, implies_true, and_true] at all
  obtain ⟨h1, h2, h3, h4, h5, h6, h7, h8, h9, h10⟩ := all
  have hc : comment (q :: r) = none := by
    unfold comment
    split <;> simp_all
  unfold pieceAt
  simp only [hs, shapes, findSome?_cons, none_of h1, none_of h2,
    none_of h3, none_of h4, none_of h5, none_of h6, none_of h7, none_of h8, none_of h9, none_of h10, hc,
    hp]
  cases longString (q :: r) with
  | some n => rfl
  | none => cases string (q :: r) <;> rfl

theorem findSome?_blind {l : List (PieceKind × (List Char → Option Nat))} {x y : List Char}
    (h : ∀ s ∈ l, Blind s.2 u x y)
    (hn : ∀ p, l.findSome? (fun s => (s.2 (u ++ x)).map fun n => (s.1, n)) = some p → p.2 ≤ u.length) :
    l.findSome? (fun s => (s.2 (u ++ y)).map fun n => (s.1, n)) =
      l.findSome? (fun s => (s.2 (u ++ x)).map fun n => (s.1, n)) := by
  induction l with
  | nil => rfl
  | cons s l ih =>
    rw [findSome?_cons] at hn
    rw [findSome?_cons, findSome?_cons]
    have same : s.2 (u ++ y) = s.2 (u ++ x) := by
      rcases h s mem_cons_self with h | ⟨n, hs, hlt⟩
      · exact h
      · rw [hs] at hn
        exact absurd (hn _ rfl) (Nat.not_le_of_lt hlt)
    rw [same]
    cases hs : s.2 (u ++ x) with
    | some n => rfl
    | none =>
      rw [hs] at hn
      exact ih (fun s hs => h s (.tail _ hs)) hn

/-- **One piece.** A piece that ends before a literal is the same for other contents of it. -/
theorem pieceAt_exchange (hq : q ∈ quotes) (hnew : Enclosable new)
    (hold : stringEnd q q (old ++ q :: after) = some (old.length + 1)) {c : Char}
    (ha : Apart q (c :: u) new after) (hn : (pieceAt c (u ++ q :: (old ++ q :: after))).2 ≤ u.length + 1) :
    pieceAt c (u ++ q :: (new ++ q :: after)) = pieceAt c (u ++ q :: (old ++ q :: after)) := by
  have hpair : ¬ (c :: u = ['"'] ∧ q = '"') := by
    rintro ⟨hc, rfl⟩
    cases hc
    -- two double quotes in a row are a piece of at least two characters
    rw [pieceAt_quote hq] at hn
    split at hn
    · rename_i n hl
      unfold longString at hl
      split at hl
      · obtain ⟨k, hk, rfl⟩ := Option.map_eq_some_iff.mp hl
        simp only [length_nil] at hn
        omega
      · cases hl
    · simp [string, stringEnd] at hn
  have stops := stopsAt_quote hq
  simp only [forall_mem_cons, not_mem_nil, IsEmpty.forall_iff, implies_true, and_true] at stops
  obtain ⟨h1, h2, h3, h4, h5, h6, h7, h8, h9, h10⟩ := stops
  have blind {f : List Char → Option Nat} (hf : StopsAt q f ∧ f [q] = none) :
      Blind f (c :: u) (q :: (old ++ q :: after)) (q :: (new ++ q :: after)) :=
    .inl ((hf.1 ..).trans (hf.1 ..).symm)
  have hqn := ne_lineEnd_of_quotes hq
  have all : ∀ s ∈ shapes, Blind s.2 (c :: u) (q :: (old ++ q :: after)) (q :: (new ++ q :: after)) := by
    unfold shapes
    simp only [forall_mem_cons, not_mem_nil, IsEmpty.forall_iff, implies_true, and_true]
    exact ⟨blind h1, blind h2, blind h3, blind h4, blind h5, blind h6, blind h7, blind h8, blind h9,
      blind_comment hqn _ _ _ (cons_ne_nil c u),
      blind_longString hnew ha (cons_ne_nil c u) hpair,
      blind_string hq hnew hold (cons_ne_nil c u), blind h10⟩
  unfold pieceAt at hn ⊢
  split
  · rfl
  · rename_i hs
    rw [if_neg hs] at hn
    have found := findSome?_blind all fun p hp => by
      rw [cons_append] at hp
      rw [hp] at hn
      exact hn
    rw [cons_append, cons_append] at found
    rw [found]

variable {cs : List Char} {n : Nat}

/-- A piece that is a string literal ends at the first quote that is not escaped. -/
theorem stringEnd_of_pieceAt (hq : q ∈ quotes) (h : pieceAt q (old ++ q :: after) = (.token .string, n))
    (hs : (q :: (old ++ q :: after)).take n = q :: (old ++ [q])) :
    n = old.length + 2 ∧ stringEnd q q (old ++ q :: after) = some (old.length + 1) := by
  rw [pieceAt_quote hq] at h
  have hc : q = '"' ∨ q = '\'' := by simpa [quotes] using hq
  split at h
  · cases h
  · split at h
    · rename_i m hm
      cases h
      rw [string, if_pos hc] at hm
      obtain ⟨k, hk, rfl⟩ := Option.map_eq_some_iff.mp hm
      have hle := (stringEnd_bounds hk).2.1
      have hlen := congrArg length hs
      simp only [length_take, length_cons, length_append, length_nil] at hlen hle
      obtain rfl : k = old.length + 1 := by omega
      exact ⟨rfl, hk⟩
    · cases h

theorem pieceAt_enclosed (hq : q ∈ quotes) (hnew : Enclosable new) (ha : Apart q [] new after) :
    pieceAt q (new ++ q :: after) = (.token .string, new.length + 2) := by
  have hc : q = '"' ∨ q = '\'' := by simpa [quotes] using hq
  have long : longString (q :: (new ++ q :: after)) = none := by
    unfold longString
    rw [if_neg]
    intro hp
    cases new with
    | cons d new =>
      have hd := (hnew d mem_cons_self).1
      simp only [cons_append, isPrefixOf, Bool.and_eq_true, beq_iff_eq] at hp
      exact hd (hp.2.1 ▸ by decide)
    | nil =>
      cases after with
      | nil => simp at hp
      | cons d after =>
        simp only [nil_append, isPrefixOf, Bool.and_eq_true, beq_iff_eq, and_true] at hp
        rcases ha with ha | ha | ha
        · exact ha rfl
        · exact ha hp.1.symm
        · exact ha.2 (by rw [← hp.2.2]; rfl)
  have last : new.getLastD q ≠ '\\' := by
    intro hl
    rcases eq_nil_or_concat' new with rfl | ⟨cs, d, rfl⟩
    · rcases hc with rfl | rfl <;> cases hl
    · rw [getLastD_concat] at hl
      exact (hnew d (by simp)).2.1 hl
  have close : stringEnd q (new.getLastD q) (q :: after) = some 1 := by
    rw [stringEnd, if_pos ⟨rfl, last⟩]
  rw [pieceAt_quote hq, long]
  simp only [string, if_pos hc, stringEnd_enclosable hq hnew, close, Option.map_some]
  rw [Nat.add_comm 1]

theorem piecesFrom_cons {c : Char} {k : PieceKind} (h : pieceAt c cs = (k, n)) (line pos : Nat) :
    piecesFrom 0 line pos (c :: cs) = ⟨k, (c :: cs).take n, line, pos⟩ ::
      piecesFrom (n - 1) (line + lineFeeds k ((c :: cs).take n)) (pos + 1) cs := by
  rw [piecesFrom, h]

theorem start_piecesFrom {skip : Nat} : ∀ p ∈ piecesFrom skip line pos cs, pos + skip ≤ p.start := by
  induction cs generalizing skip line pos with
  | nil => cases skip <;> exact nofun
  | cons c cs ih =>
    intro p hp
    cases skip with
    | succ skip =>
      have := ih p hp
      omega
    | zero =>
      rcases mem_cons.mp hp with rfl | hp
      · exact le_refl pos
      · have := ih p hp
        omega

theorem piecesFrom_literal {n : List Char} (h : pieceAt q (n ++ q :: after) = (.token .string, n.length + 2))
    (hn : '\n' ∉ q :: (n ++ [q])) (line pos : Nat) :
    piecesFrom 0 line pos (q :: (n ++ q :: after)) = ⟨.token .string, q :: (n ++ [q]), line, pos⟩ ::
      piecesFrom 0 line (pos + (n.length + 2)) after := by
  have cut := @piecesFrom_eq after (.token .string) q (n ++ [q]) (by simpa using h) line pos
  have feeds : lineFeeds (.token .string) (q :: (n ++ [q])) = 0 := count_eq_zero.mpr hn
  rw [feeds] at cut
  simpa [Nat.add_assoc, Nat.add_comm 1] using cut

/-- The two texts are cut alike: the same pieces up to the literal, and the same text behind it. -/
structure CutAlike (q : Char) (u old new after : List Char) (line pos l : Nat) : Prop where
  closed : stringEnd q q (old ++ q :: after) = some (old.length + 1)
  pieces : ∃ ps,
    piecesFrom 0 line pos (u ++ q :: (old ++ q :: after)) =
      ps ++ ⟨.token .string, q :: (old ++ [q]), l, pos + u.length⟩ ::
        piecesFrom 0 l (pos + u.length + (old.length + 2)) after ∧
    piecesFrom 0 line pos (u ++ q :: (new ++ q :: after)) =
      ps ++ ⟨.token .string, q :: (new ++ [q]), l, pos + u.length⟩ ::
        piecesFrom 0 l (pos + u.length + (new.length + 2)) after

theorem cutAlike_nil (hq : q ∈ quotes) (hnew : Enclosable new) (ha : Apart q [] new after)
    (h : ⟨.token .string, q :: (old ++ [q]), l, pos⟩ ∈
      piecesFrom 0 line pos (q :: (old ++ q :: after))) :
    CutAlike q [] old new after line pos l := by
  have hqn := (ne_lineEnd_of_quotes hq).symm
  obtain ⟨k, n, hp⟩ : ∃ k n, pieceAt q (old ++ q :: after) = (k, n) := ⟨_, _, rfl⟩
  rw [piecesFrom_cons hp] at h
  rcases mem_cons.mp h with he | he
  · obtain ⟨rfl, hs, rfl, -⟩ := Piece.mk.inj he
    obtain ⟨rfl, closed⟩ := stringEnd_of_pieceAt hq hp hs.symm
    have oneLine : '\n' ∉ q :: (old ++ [q]) := by
      have hn := (stringEnd_bounds closed).2.2 hqn.symm
      rw [append_cons, take_append_of_le_length (by simp), take_of_length_le (by simp)] at hn
      exact not_mem_cons_of_ne_of_not_mem hqn hn
    refine ⟨closed, [], piecesFrom_literal hp oneLine .., piecesFrom_literal (pieceAt_enclosed hq hnew ha) ?_ ..⟩
    simp only [mem_cons, mem_append, not_mem_nil, or_false, not_or]
    exact ⟨hqn, fun hn => (hnew _ hn).2.2 rfl, hqn⟩
  · have := start_piecesFrom _ he
    dsimp only at this
    omega

/-- **Other contents.** A text in which a literal gets other contents is cut into the same pieces, up to
that literal; the pieces behind it only move. The induction is on what stands before the literal. -/
theorem piecesFrom_exchange (hq : q ∈ quotes) (hnew : Enclosable new) (k : Nat) :
    ∀ {u : List Char} {line pos : Nat}, u.length ≤ k → Apart q u new after →
      ⟨.token .string, q :: (old ++ [q]), l, pos + u.length⟩ ∈ piecesFrom 0 line pos (u ++ q :: (old ++ q :: after)) →
      CutAlike q u old new after line pos l := by
  induction k with
  | zero =>
    intro u line pos hk ha h
    obtain rfl := eq_nil_of_length_eq_zero (Nat.le_zero.mp hk)
    exact cutAlike_nil hq hnew ha h
  | succ k ih =>
    intro u line pos hk ha h
    cases u with
    | nil => exact cutAlike_nil hq hnew ha h
    | cons c u =>
      obtain ⟨k, n, hp⟩ : ∃ k n, pieceAt c (u ++ q :: (old ++ q :: after)) = (k, n) := ⟨_, _, rfl⟩
      rw [cons_append, piecesFrom_cons hp] at h
      rcases mem_cons.mp h with he | he
      · have := congrArg Piece.start he
        simp at this
      · have later := start_piecesFrom _ he
        simp only [length_cons] at later hk
        -- the piece at hand ends before the literal, which starts a piece itself
        have hn : n - 1 ≤ u.length := by omega
        have rest (x : List Char) : (u ++ x).drop (n - 1) = u.drop (n - 1) ++ x := drop_append_of_le_length hn
        have source (x : List Char) : (c :: (u ++ x)).take n = (c :: u).take n := by
          rw [← cons_append, take_append_of_le_length (by simp; omega)]
        rw [piecesFrom_skip _ _ _ _ (by simp; omega), rest, source] at he
        have place : pos + (c :: u).length = pos + 1 + (n - 1) + (u.drop (n - 1)).length := by
          simp
          omega
        have aligned : Apart q (u.drop (n - 1)) new after := by
          simpa using ha.drop (n - 1 + 1)
        rw [place] at he
        obtain ⟨closed, ps, h1, h2⟩ := ih (by simp; omega) aligned he
        have hp' := pieceAt_exchange hq hnew closed ha (by rw [hp]; dsimp only; omega)
        refine ⟨closed, ⟨k, (c :: u).take n, line, pos⟩ :: ps, ?_, ?_⟩
        · rw [cons_append, piecesFrom_cons hp, piecesFrom_skip _ _ _ _ (by simp; omega), rest, source, h1, place]
          rfl
        · rw [cons_append, piecesFrom_cons (hp'.trans hp), piecesFrom_skip _ _ _ _ (by simp; omega),
            rest, source, h2, place]
          rfl

end Literal

/-- Pieces that differ at most in the place where they stand. -/
structure Moved (p r : Piece) : Prop where
  kind : p.kind = r.kind
  source : p.source = r.source

theorem piecesFrom_moved (cs : List Char) (skip line pos line' pos' : Nat) :
    List.Forall₂ Moved (piecesFrom skip line pos cs) (piecesFrom skip line' pos' cs) := by
  induction cs generalizing skip line pos line' pos' with
  | nil => cases skip <;> exact .nil
  | cons c cs ih =>
    cases skip with
    | succ skip => exact ih ..
    | zero => exact .cons ⟨rfl, rfl⟩ (ih ..)

end GdScribe.Scan
