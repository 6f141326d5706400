import GdScribe.Proofs.Reader.View

/-!
# Cutting a text into words

Principal results: `Lexes.token` and `Lexes.skip` for one piece, and `Lexes.identifier`,
`Lexes.number`, `Lexes.punct` and `Lexes.lineEnd` for the kinds of pieces.
-/

namespace GdScribe.Scan

open List

/-- A text is cut into tokens with the words `ws`, and nothing in it is reported. -/
def Lexes (cs : List Char) (ws : List Word) : Prop :=
  ∀ line pos, (group [] (piecesFrom 0 line pos cs)).lexemes.map (fun l => l.token.word) = ws ∧
    (∀ l ∈ (group [] (piecesFrom 0 line pos cs)).lexemes, l.notices = []) ∧
    (group [] (piecesFrom 0 line pos cs)).closing = []

theorem piecesFrom_skip (cs : List Char) : ∀ skip line pos, skip ≤ cs.length →
      piecesFrom skip line pos cs = piecesFrom 0 line (pos + skip) (cs.drop skip) := by
  induction cs with
  | nil =>
    intro skip line pos h
    cases skip with
    | zero => rfl
    | succ skip => cases h
  | cons c cs ih =>
    intro skip line pos h
    cases skip with
    | zero => rfl
    | succ skip =>
      rw [piecesFrom, ih skip line (pos + 1) (Nat.le_of_succ_le_succ h)]
      congr 1
      omega

variable {rest cs : List Char}

variable {k : PieceKind} {c : Char}

theorem piecesFrom_eq {l : List Char} (h : pieceAt c (l ++ rest) = (k, l.length + 1)) (line pos : Nat) :
    piecesFrom 0 line pos (c :: l ++ rest) = ⟨k, c :: l, line, pos⟩ ::
      piecesFrom 0 (line + lineFeeds k (c :: l)) (pos + 1 + l.length) rest := by
  rw [cons_append, piecesFrom, h]
  dsimp only
  have source : (c :: (l ++ rest)).take (l.length + 1) = c :: l := by simp
  rw [source, Nat.add_sub_cancel, piecesFrom_skip _ _ _ _ (by simp), drop_left]

namespace Lexes

variable {c : Char} {l rest : List Char} {ws : List Word}

theorem nil : Lexes [] [] := fun _ _ => ⟨rfl, nofun, rfl⟩

theorem of_eq (h : Lexes l ws) (same : rest = l) : Lexes rest ws := same ▸ h

theorem token {k : TokenKind} (h : pieceAt c (l ++ rest) = (.token k, l.length + 1))
    (hr : Lexes rest ws) : Lexes (c :: l ++ rest) ((k, valueOf k (c :: l)) :: ws) := by
  intro line pos
  rw [piecesFrom_eq h]
  obtain ⟨h1, h2, h3⟩ := hr (line + lineFeeds (.token k) (c :: l)) (pos + 1 + l.length)
  refine ⟨congrArg _ h1, ?_, h3⟩
  intro l hl
  rcases mem_cons.mp hl with rfl | hl
  · rfl
  · exact h2 l hl

theorem skip (h : pieceAt c rest = (k, 1))
    (hk : k = .blank ∨ k = .stray ∧ c = '\t') (hr : Lexes rest ws) : Lexes (c :: rest) ws := by
  intro line pos
  have cut := piecesFrom_eq (l := []) h line pos
  rw [show c :: rest = c :: [] ++ rest from rfl, cut]
  obtain ⟨h1, h2, h3⟩ := hr (line + lineFeeds k [c]) (pos + 1)
  rcases hk with rfl | ⟨rfl, rfl⟩
  · exact ⟨h1, h2, h3⟩
  · exact ⟨h1, h2, h3⟩

theorem space (hr : Lexes rest ws) : Lexes (' ' :: rest) ws := hr.skip rfl (.inl rfl)

theorem carriageReturn (hr : Lexes rest ws) : Lexes ('\r' :: rest) ws := hr.skip rfl (.inl rfl)

theorem tab (hr : Lexes rest ws) : Lexes ('\t' :: rest) ws := hr.skip rfl (.inr ⟨rfl, rfl⟩)

end Lexes

/-! ## Names -/

theorem small_of_isNamePart (h : isNamePart c = true) : c.toNat < 128 := by
  unfold isNamePart Char.isAlphanum Char.isAlpha Char.isUpper Char.isLower Char.isDigit at h
  simp only [Bool.or_eq_true, Bool.and_eq_true, decide_eq_true_eq, beq_iff_eq] at h
  have small {k : UInt32} (hk : k.toNat < 128) (h : c.val ≤ k) : c.toNat < 128 :=
    Nat.lt_of_le_of_lt (UInt32.le_iff_toNat_le.mp h) hk
  rcases h with (((h | h) | h) | rfl)
  · exact small (by decide) h.2
  · exact small (by decide) h.2
  · exact small (by decide) h.2
  · decide

theorem isWord_of_isNamePart (h : isNamePart c = true) : CharClass.isWord c = true := by
  unfold CharClass.isWord CharClass.test
  rw [if_pos (small_of_isNamePart h)]
  exact h

theorem isNamePart_of_isNameStart (h : isNameStart c = true) : isNamePart c = true := by
  unfold isNameStart at h
  unfold isNamePart Char.isAlphanum
  simp only [Bool.or_eq_true] at h ⊢
  exact h.imp_left .inl

/-- A text that is read as one word of letters. -/
structure IsIdentifier (n : String) : Prop where
  start : n.toList.head?.any isNameStart = true
  letters : ∀ c ∈ n.toList, isNamePart c = true
  /-- Two operators are words. -/
  notJoining : n ∉ ["and", "or"]
  /-- A third one is read wherever a word starts with it. -/
  notNegated : ¬ "not".toList <+: n.toList

instance (n : String) : Decidable (IsIdentifier n) :=
  decidable_of_iff (n.toList.head?.any isNameStart = true ∧ (∀ c ∈ n.toList, isNamePart c = true) ∧
      n ∉ ["and", "or"] ∧ ¬ "not".toList <+: n.toList)
    ⟨fun h => ⟨h.1, h.2.1, h.2.2.1, h.2.2.2⟩, fun h => ⟨h.start, h.letters, h.notJoining, h.notNegated⟩⟩

/-- A text does not go on with a letter. -/
def NameEnds (rest : List Char) : Prop := ∀ d, rest.head? = some d → isNamePart d = false

/-- A word of letters starts a text only if it starts the name with which the text starts. -/
theorem prefix_of_prefix_append {w n : List Char}
    (hw : ∀ c ∈ w, isNamePart c = true) (hd : NameEnds rest) (h : w <+: n ++ rest) : w <+: n := by
  induction w generalizing n with
  | nil => exact nil_prefix
  | cons x w ih =>
    cases n with
    | nil =>
      obtain ⟨t, rfl⟩ := h
      exact absurd ((hw x mem_cons_self).symm.trans (hd x rfl)) nofun
    | cons y n =>
      obtain ⟨rfl, hp⟩ := cons_prefix_cons.mp h
      exact cons_prefix_cons.mpr ⟨rfl, ih (fun c hc => hw c (mem_cons_of_mem x hc)) hp⟩

variable {x : String}

theorem not_prefix_sign {p : Char → Bool} (hc : p c = true)
    (hx : x.toList.head?.any (fun d => !p d) = true) : ¬ x.toList <+: c :: cs := by
  intro hp
  cases hl : x.toList with
  | nil => rw [hl] at hx; cases hx
  | cons d ds =>
    rw [hl] at hx hp
    have hd : d = c := (cons_prefix_cons.mp hp).1
    rw [hd] at hx
    simp [hc] at hx

theorem oneOf_eq_none {heads : List String} (h : ∀ x ∈ heads, ¬ x.toList <+: cs) : oneOf heads cs = none := by
  unfold oneOf
  rw [find?_eq_none.mpr, Option.map_none]
  exact fun x hx hp => h x hx ( isPrefixOf_iff_prefix.mp hp)

theorem comparison_eq_none (h : ∀ x ∈ comparisonOperators, comparesWith cs x = false) : comparison cs = none := by
  unfold comparison
  rw [find?_eq_none.mpr, Option.map_none]
  intro x hx hc
  rw [h x hx] at hc
  cases hc

theorem comparesWith_of_not_prefix (h : ¬ x.toList <+: cs) : comparesWith cs x = false := by
  unfold comparesWith
  rw [Bool.and_eq_false_iff]
  exact .inl (Bool.eq_false_iff.mpr fun hp => h ( isPrefixOf_iff_prefix.mp hp))

variable {n : String}

/-- An operator that is a word is not read at the start of another word. -/
theorem comparesWith_word
    (hn : ∀ c ∈ n.toList, isNamePart c = true) (hd : NameEnds rest)
    (hx : ∀ c ∈ x.toList, isNamePart c = true) (hne : n ≠ x) : comparesWith (n.toList ++ rest) x = false := by
  by_cases hp : x.toList <+: n.toList ++ rest
  · obtain ⟨m, hm⟩ := prefix_of_prefix_append hx hd hp
    cases m with
    | nil =>
      rw [append_nil] at hm
      exact absurd (String.toList_inj.mp hm).symm hne
    | cons y m =>
      have next : (n.toList ++ rest)[x.length]? = some y := by
        rw [← hm, append_assoc, ← String.length_toList, getElem?_append_right (Nat.le_refl _), Nat.sub_self]
        rfl
      have hy : isNamePart y = true := hn y (by rw [← hm]; simp)
      unfold comparesWith
      rw [next, Bool.and_eq_false_iff]
      exact .inr (by simp [isWord_of_isNamePart hy])
  · exact comparesWith_of_not_prefix hp

section signs

variable {p : Char → Bool} {c : Char} (hc : p c = true)

include hc

theorem not_isSpace (h : p ' ' = false ∧ p '\r' = false) : ¬ isSpace c = true := by
  unfold isSpace
  simp only [Bool.or_eq_true, beq_iff_eq]
  rintro (rfl | rfl)
  · exact Bool.eq_false_iff.mp h.1 hc
  · exact Bool.eq_false_iff.mp h.2 hc

theorem oneOf_signs {l : List String} (h : ∀ x ∈ l, x.toList.head?.any (fun d => !p d) = true) :
    oneOf l (c :: cs) = none := oneOf_eq_none fun x hx => not_prefix_sign hc (h x hx)

theorem arithmetic_signs (h : ∀ x ∈ arithmeticOperators, x.toList.head?.any (fun d => !p d) = true) :
    arithmetic (c :: cs) = none := by
  rw [arithmetic, oneOf_signs hc h, Option.map_none]

end signs

theorem pieceAt_identifier (h : IsIdentifier n) (hn : n.toList = c :: cs) (hd : NameEnds rest) :
    pieceAt c (cs ++ rest) = (.token .text, cs.length + 1) := by
  have start : isNameStart c = true := by simpa [hn] using h.start
  have letter : isNamePart c = true := isNamePart_of_isNameStart start
  have whole : c :: (cs ++ rest) = n.toList ++ rest := by rw [hn]; rfl
  have sign {x : String} (hx : x.toList.head?.any (fun d => !isNamePart d) = true) :
      ¬ x.toList <+: c :: (cs ++ rest) := not_prefix_sign letter hx
  have compare : comparison (c :: (cs ++ rest)) = none := by
    refine comparison_eq_none fun x hx => ?_
    have cases : x.toList.head?.any (fun d => !isNamePart d) = true ∨
        x ∈ ["and", "or"] ∧ ∀ c ∈ x.toList, isNamePart c = true := by
      revert x
      decide
    rcases cases with hs | ⟨hj, hw⟩
    · exact comparesWith_of_not_prefix (sign hs)
    · rw [whole]
      exact comparesWith_word h.letters hd hw fun he => h.notJoining (he ▸ hj)
  have negation : ¬ "not".toList <+: c :: (cs ++ rest) := by
    rw [whole]
    exact fun hp => h.notNegated (prefix_of_prefix_append (by decide) hd hp)
  have unary : oneOf unaryOperators (c :: (cs ++ rest)) = none := by
    refine oneOf_eq_none fun x hx => ?_
    simp only [unaryOperators, mem_cons, not_mem_nil, or_false] at hx
    rcases hx with rfl | rfl | rfl
    · exact sign rfl
    · exact sign rfl
    · exact negation
  have name : text (c :: (cs ++ rest)) = some (cs.length + 1) := by
    have stop : rest.takeWhile isNamePart = [] := by
      cases rest with
      | nil => rfl
      | cons d rest => exact takeWhile_cons_of_neg (by rw [hd d rfl]; decide)
    have run_eq : run isNamePart (cs ++ rest) = cs.length := by
      unfold run
      rw [takeWhile_append_of_pos fun x hx => h.letters x (by rw [hn]; exact .tail c hx), stop, append_nil]
    rw [text, if_pos start, run_eq, Nat.add_comm]
  unfold pieceAt
  rw [if_neg (not_isSpace letter (by decide))]
  simp only [shapes, findSome?_cons, oneOf_signs letter (l := ["->"]) (by decide), arithmetic_signs letter (by decide),
    compare, unary, name, Option.map_none, Option.map_some]

/-! ## Numbers -/

theorem not_decimal_of_isNameStart (h : isNameStart c = true) : CharClass.isDecimal c = false := by
  have all : ∀ n < 128, isNameStart (Char.ofNat n) = true → CharClass.isDecimal (Char.ofNat n) = false := by decide
  have hc := all c.toNat (small_of_isNamePart (isNamePart_of_isNameStart h))
  rw [Char.ofNat_toNat] at hc
  exact hc h

/-- A text does not go on with a digit, a point, or the letter of another base. -/
def NumberEnds (rest : List Char) : Prop :=
  ∀ d, rest.head? = some d → CharClass.isDecimal d = false ∧ d ∉ ['.', 'x', 'X']

/-- The shapes before numbers do not fit a text that starts with decimal digits. -/
theorem pieceAt_number (h : ∀ d ∈ c :: cs, CharClass.isDecimal d = true) (ends : NumberEnds rest) :
    pieceAt c (cs ++ rest) = (.token .int, cs.length + 1) := by
  have hc : CharClass.isDecimal c = true := h c mem_cons_self
  have compare : comparison (c :: (cs ++ rest)) = none := comparison_eq_none fun x hx =>
    comparesWith_of_not_prefix (not_prefix_sign hc (by revert x; decide))
  have name : text (c :: (cs ++ rest)) = none := by
    rw [text, if_neg]
    intro hs
    have letter := not_decimal_of_isNameStart hs
    rw [hc] at letter
    cases letter
  have digits : run CharClass.isDecimal (c :: (cs ++ rest)) = cs.length + 1 := by
    have stop : rest.takeWhile CharClass.isDecimal = [] := by
      cases rest with
      | nil => rfl
      | cons d rest => exact takeWhile_cons_of_neg (by simp [(ends d rfl).1])
    unfold run
    rw [← cons_append, takeWhile_append_of_pos h, stop, append_nil, length_cons]
  have float : float (c :: (cs ++ rest)) = none := by
    have next : (c :: (cs ++ rest))[cs.length + 1]? = rest.head? := by
      rw [getElem?_cons_succ, getElem?_append_right (Nat.le_refl _), Nat.sub_self, head?_eq_getElem?]
    unfold Scan.float
    rw [digits]
    dsimp only
    rw [next, if_neg fun dot => (ends _ dot).2 (by decide)]
  have hex : hex (c :: (cs ++ rest)) = none := by
    unfold Scan.hex
    split
    · rename_i x xs heq
      have second : CharClass.isDecimal x = true ∨ rest.head? = some x := by
        cases cs with
        | nil => exact .inr (congrArg List.head? (List.cons.inj heq).2)
        | cons y ys => exact .inl ((List.cons.inj (List.cons.inj heq).2).1 ▸ h y (.tail c mem_cons_self))
      refine if_neg fun hb => ?_
      rcases second with digit | first
      · rcases hb.1 with rfl | rfl <;> cases digit
      · exact (ends x first).2 (by rcases hb.1 with rfl | rfl <;> decide)
    · rfl
  have number : int (c :: (cs ++ rest)) = some (cs.length + 1) := by
    unfold int
    rw [digits]
    rfl
  unfold pieceAt
  rw [if_neg (not_isSpace hc (by decide))]
  simp only [shapes, findSome?_cons, oneOf_signs hc (l := ["->"]) (by decide), arithmetic_signs hc (by decide),
    compare, oneOf_signs hc (l := unaryOperators) (by decide), name, float, hex, number, Option.map_none,
    Option.map_some]

/-! ## Pieces before other tokens -/

namespace Lexes

variable {rest : List Char} {ws : List Word}

theorem identifier {d : Char} (h : IsIdentifier n) (hd : isNamePart d = false)
    (hr : Lexes (d :: rest) ws) : Lexes (n.toList ++ d :: rest) ((.text, n) :: ws) := by
  cases hn : n.toList with
  | nil =>
    have := h.start
    rw [hn] at this
    cases this
  | cons c cs =>
    have ends : NameEnds (d :: rest) := fun _ he => Option.some.inj he ▸ hd
    have cut := token (pieceAt_identifier h hn ends) hr
    have value : valueOf .text (c :: cs) = n := by rw [← hn]; exact String.ofList_toList
    rwa [value] at cut

theorem number (hne : n ≠ "") (h : ∀ c ∈ n.toList, CharClass.isDecimal c = true)
    (hr : Lexes ('\n' :: rest) ws) : Lexes (n.toList ++ '\n' :: rest) ((.int, n) :: ws) := by
  cases hn : n.toList with
  | nil => exact absurd (String.toList_eq_nil_iff.mp hn) hne
  | cons c cs =>
    have ends : NumberEnds ('\n' :: rest) := fun d hd => Option.some.inj hd ▸ by decide
    have cut := token (pieceAt_number (hn ▸ h) ends) hr
    have value : valueOf .int (c :: cs) = n := by rw [← hn]; exact String.ofList_toList
    rwa [value] at cut

theorem punct (hc : c ∈ ['(', ')', ':']) (hr : Lexes rest ws) :
    Lexes (c :: rest) ((.punct c, String.singleton c) :: ws) := by
  simp only [mem_cons, not_mem_nil, or_false] at hc
  rcases hc with rfl | rfl | rfl
  · exact token (l := []) (k := .punct '(') rfl hr
  · exact token (l := []) (k := .punct ')') rfl hr
  · exact token (l := []) (k := .punct ':') rfl hr

theorem lineEnd (n : Nat) (hhead : rest.head? ≠ some '\t') (hr : Lexes rest ws) :
    Lexes ('\n' :: replicate n '\t' ++ rest) ((.lineEnd, toString n) :: ws) := by
  have tabs : run (· == '\t') (replicate n '\t' ++ rest) = n := by
    unfold run
    rw [takeWhile_append_of_pos fun c hc => by simpa using (mem_replicate.mp hc).2]
    cases rest with
    | nil => simp
    | cons c cs =>
      have hc : ¬ (c == '\t') = true := fun hc => hhead (by rw [beq_iff_eq.mp hc]; rfl)
      rw [takeWhile_cons_of_neg (p := (· == '\t')) hc, append_nil, length_replicate]
  have piece : ∀ cs, pieceAt '\n' cs = (.token .lineEnd, 1 + run (· == '\t') cs) := fun _ => rfl
  have cut := token (l := replicate n '\t')
    (by rw [piece, tabs, length_replicate, Nat.add_comm]) hr
  have value : valueOf .lineEnd ('\n' :: replicate n '\t') = toString n := by
    unfold valueOf
    rw [count_cons_of_ne (by decide), count_replicate_self]
  rwa [value] at cut

end Lexes

end GdScribe.Scan
