import GdScribe.Proofs.Literals.Scanning

/-!
# Tokens tile their text

A text is cut into pieces that lie one behind the other and leave nothing out. So the tokens do not
overlap, and what stands between them is passed over for a stated reason.

* `Covers`: a shape reaches over some characters of a text, and not beyond its end.
* `Stray`, `strays`: the characters at which no token can start, in text order.

Principal result: `tokens_tile_text`.
-/

namespace GdScribe.Scan

open List

/-! ## Shapes -/

/-- The line feeds of a piece that are not counted: a comparison may take one with it. -/
def missedFeeds (k : PieceKind) (source : List Char) : Nat :=
  if k = .token .comparison then source.count '\n' else 0

/-- Line feeds in pieces of this kind are counted or missed. -/
def TakesLines (k : PieceKind) : Prop := ∀ l, l.count '\n' = lineFeeds k l + missedFeeds k l

/-- A shape for pieces of some kind covers at least one character of a text and none beyond its end. -/
def Covers (k : PieceKind) (f : List Char → Option Nat) : Prop :=
  ∀ {cs n}, f cs = some n → 0 < n ∧ n ≤ cs.length ∧ ('\n' ∈ cs.take n → TakesLines k)

variable {heads : List String} {n : Nat} {k : PieceKind}

theorem covers_oneOf (h : ∀ x ∈ heads, 0 < x.length ∧ '\n' ∉ x.toList) : Covers k (oneOf heads) := by
  intro cs n hn
  obtain ⟨x, hx, rfl, hp⟩ := oneOf_eq_some hn
  refine ⟨(h x hx).1, String.length_toList ▸ hp.length_le, fun hm => absurd hm ?_⟩
  rw [← String.length_toList, ← prefix_iff_eq_take.mp hp]
  exact (h x hx).2

theorem covers_arithmetic : Covers k arithmetic := by
  intro cs n hn
  obtain ⟨m, hm, rfl⟩ := Option.map_eq_some_iff.mp hn
  have op := covers_oneOf (k := k) (by decide) hm
  split
  · next he =>
    have := (List.getElem?_eq_some_iff.mp he).1
    refine ⟨by omega, by omega, fun h => op.2.2 ?_⟩
    simpa [take_add_one, he] using h
  · exact op

theorem covers_comparison : Covers (.token .comparison) comparison := by
  intro cs n hn
  obtain ⟨x, hx, rfl⟩ := Option.map_eq_some_iff.mp hn
  have found := find?_some hx
  unfold comparesWith at found
  cases hc : cs[x.length]? with
  | none => simp [hc] at found
  | some c =>
    have := (List.getElem?_eq_some_iff.mp hc).1
    exact ⟨by omega, by omega, fun _ _ => (Nat.zero_add _).symm⟩

theorem lineFeed_not_mem_run {p : Char → Bool} (hp : p '\n' = false) (cs : List Char) : '\n' ∉ cs.take (run p cs) := by
  rw [run, ← prefix_iff_eq_take.mp ( takeWhile_prefix p)]
  exact fun h => by rw [mem_takeWhile_imp h] at hp; cases hp

/-- Some characters, and a run behind them. -/
theorem covers_run {p : Char → Bool} {w : List Char} (hw : '\n' ∉ w) (hp : p '\n' = false) (r : List Char) :
    w.length + run p r ≤ (w ++ r).length ∧ ('\n' ∈ (w ++ r).take (w.length + run p r) → TakesLines k) := by
  rw [length_append, take_length_add_append]
  exact ⟨Nat.add_le_add_left (run_le p r) _, fun h => absurd h (by simp [hw, lineFeed_not_mem_run hp])⟩

theorem covers_text : Covers k text := by
  intro cs n hn
  cases cs with
  | nil => cases hn
  | cons c cs =>
    rw [text] at hn
    split at hn
    · next hc =>
      cases hn
      refine ⟨by omega, covers_run (w := [c]) (fun h => ?_) rfl cs⟩
      rw [← mem_singleton.mp h] at hc
      cases hc
    · cases hn

theorem covers_float : Covers k float := by
  intro cs n hn
  unfold float at hn
  simp only at hn
  split at hn
  · next hp =>
    split at hn
    · cases hn
    · cases hn
      have digits := lineFeed_not_mem_run (p := CharClass.isDecimal) rfl cs
      generalize run CharClass.isDecimal cs = m at hp digits ⊢
      obtain ⟨hm, point⟩ := List.getElem?_eq_some_iff.mp hp
      have parts : cs.take m ++ ['.'] ++ cs.drop (m + 1) = cs := by
        rw [← point, take_append_getElem, take_append_drop]
      have cover := covers_run (k := k) (w := cs.take m ++ ['.']) (p := CharClass.isDecimal) (by simp [digits])
        rfl (cs.drop (m + 1))
      rw [parts, length_append, length_take_of_le (le_of_lt hm)] at cover
      exact ⟨by omega, cover⟩
  · cases hn

theorem covers_hex : Covers k hex := by
  intro cs n hn
  unfold hex at hn
  split at hn
  · next x cs =>
    simp only at hn
    split at hn
    · next hx =>
      cases hn
      exact ⟨by omega, covers_run (w := ['0', x]) (by rcases hx.1 with rfl | rfl <;> decide) rfl cs⟩
    · cases hn
  · cases hn

theorem covers_int : Covers k int := by
  intro cs n hn
  unfold int at hn
  simp only at hn
  split at hn
  · cases hn
  · next h0 =>
    cases hn
    exact ⟨Nat.pos_of_ne_zero h0, by simpa using covers_run (w := []) nofun rfl cs⟩

theorem covers_comment : Covers k comment := by
  intro cs n hn
  unfold comment at hn
  split at hn
  · next cs =>
    cases hn
    exact ⟨by omega, covers_run (w := ['#']) nofun rfl cs⟩
  · cases hn

theorem covers_joint : Covers .joint joint := by
  intro cs n hn
  unfold joint at hn
  split at hn
  · next cs =>
    cases hn
    have := run_le (· == '\t') cs
    exact ⟨by omega, by simp only [length_cons]; omega, fun _ _ => rfl⟩
  · cases hn

theorem covers_lineEnd : Covers (.token .lineEnd) lineEnd := by
  intro cs n hn
  unfold lineEnd at hn
  split at hn
  · next cs =>
    cases hn
    have := run_le (· == '\t') cs
    exact ⟨by omega, by simp only [length_cons]; omega, fun _ _ => rfl⟩
  · cases hn

theorem covers_longString : Covers (.token .longString) longString := by
  intro cs n hn
  unfold longString at hn
  split at hn
  · next hp =>
    obtain ⟨k, hk, rfl⟩ := Option.map_eq_some_iff.mp hn
    have opening := ( isPrefixOf_iff_prefix.mp hp).length_le
    have rest := (longStringEnd_bounds hk).2
    rw [length_drop] at rest
    simp only [length_cons] at opening
    exact ⟨by omega, by omega, fun _ _ => rfl⟩
  · cases hn

theorem covers_string : Covers (.token .string) string := by
  intro cs n hn
  cases cs with
  | nil => cases hn
  | cons c cs =>
    rw [string] at hn
    split at hn
    · obtain ⟨k, hk, rfl⟩ := Option.map_eq_some_iff.mp hn
      exact ⟨Nat.succ_pos k, Nat.succ_le_succ (stringEnd_bounds hk).2.1, fun _ _ => rfl⟩
    · cases hn

theorem covers_of_mem_shapes : ∀ f ∈ shapes, Covers f.1 f.2 := by
  simp only [shapes, forall_mem_cons, not_mem_nil, false_imp_iff, implies_true, and_true]
  exact ⟨covers_oneOf (by decide), covers_arithmetic, covers_comparison, covers_oneOf (by decide),
    covers_text, covers_float, covers_hex, covers_int, covers_joint, covers_comment, covers_longString,
    covers_string, covers_lineEnd⟩

/-! ## Pieces -/

/-- The kind and the length of the piece at the start of a text, by the rules. -/
inductive StartsWith (c : Char) (cs : List Char) : PieceKind → Nat → Prop
  | blank (h : isSpace c = true) : StartsWith c cs .blank 1
  | shape {k : PieceKind} {n : Nat} (f : List Char → Option Nat) (hf : (k, f) ∈ shapes)
    (h : f (c :: cs) = some n) : StartsWith c cs k n
  | punct (h : c ∈ punctuation) : StartsWith c cs (.token (.punct c)) 1
  | stray (hs : isSpace c = false) (hf : ∀ f ∈ shapes, f.2 (c :: cs) = none) (hp : c ∉ punctuation) :
    StartsWith c cs .stray 1

theorem startsWith_pieceAt (c : Char) (cs : List Char) : StartsWith c cs (pieceAt c cs).1 (pieceAt c cs).2 := by
  unfold pieceAt
  split
  · next hs => exact .blank hs
  · next hs =>
    split
    · next p hp =>
      obtain ⟨f, hf, h⟩ := exists_of_findSome?_eq_some hp
      obtain ⟨n, hn, rfl⟩ := Option.map_eq_some_iff.mp h
      exact .shape f.2 hf hn
    · next hp =>
      split
      · next hc => exact .punct (by simpa using hc)
      · next hc =>
        refine .stray (by simpa using hs) (fun f hf => ?_) (by simpa using hc)
        exact Option.map_eq_none_iff.mp (findSome?_eq_none_iff.mp hp f hf)

theorem StartsWith.covers {c : Char} {cs : List Char} (h : StartsWith c cs k n) :
    0 < n ∧ n ≤ cs.length + 1 ∧ ('\n' ∈ (c :: cs).take n → TakesLines k) := by
  have one (hc : '\n' ≠ c) : 0 < 1 ∧ 1 ≤ cs.length + 1 ∧ ('\n' ∈ (c :: cs).take 1 → TakesLines k) :=
    ⟨Nat.one_pos, Nat.le_add_left 1 _, fun h => absurd (mem_singleton.mp h) hc⟩
  cases h with
  | blank h => exact one (by rintro rfl; cases h)
  | shape f hf h => exact covers_of_mem_shapes _ hf h
  | punct h => exact one (by rintro rfl; revert h; decide)
  | stray _ hf => exact one (by rintro rfl; cases hf (.token .lineEnd, lineEnd) (by simp [shapes]))

/-- Pieces that cover a text from a line and a place on, each as the rules have it. -/
inductive Tiles : Nat → Nat → List Char → List Piece → Prop
  | nil (line pos : Nat) : Tiles line pos [] []
  | cons {k : PieceKind} {c : Char} {l rest : List Char} {ps : List Piece} (line pos : Nat)
    (starts : StartsWith c (l ++ rest) k (l.length + 1))
    (h : Tiles (line + lineFeeds k (c :: l)) (pos + (l.length + 1)) rest ps) :
    Tiles line pos (c :: l ++ rest) (⟨k, c :: l, line, pos⟩ :: ps)

/-- **Pieces tile a text.** By induction on its length: the first piece takes some of it. -/
theorem tiles_piecesFrom (n : Nat) : ∀ cs line pos, cs.length ≤ n → Tiles line pos cs (piecesFrom 0 line pos cs) := by
  induction n with
  | zero =>
    intro cs line pos h
    obtain rfl := eq_nil_of_length_eq_zero (Nat.le_zero.mp h)
    exact .nil line pos
  | succ n ih =>
    intro cs line pos h
    cases cs with
    | nil => exact .nil line pos
    | cons c cs =>
      have starts := startsWith_pieceAt c cs
      obtain ⟨pos_n, le_n, -⟩ := starts.covers
      generalize hp : pieceAt c cs = p at starts pos_n le_n
      obtain ⟨k, m⟩ := p
      obtain ⟨m, rfl⟩ : ∃ i, m = i + 1 := ⟨m - 1, by omega⟩
      have parts : cs = cs.take m ++ cs.drop m := (take_append_drop m cs).symm
      have len : (cs.take m).length = m := length_take_of_le (by omega)
      generalize cs.take m = l, cs.drop m = rest at parts len
      subst parts len
      rw [← cons_append, piecesFrom_eq hp, Nat.add_assoc pos, Nat.add_comm 1]
      refine .cons line pos starts (ih rest _ _ ?_)
      simp only [length_cons, length_append] at h
      omega

namespace Tiles

variable {line pos : Nat} {cs : List Char} {ps : List Piece}

variable (h : Tiles line pos cs ps)

include h

theorem start_le : ∀ p ∈ ps, pos ≤ p.start := by
  induction h with
  | nil => exact nofun
  | cons line pos _ _ ih =>
    intro p hp
    rcases mem_cons.mp hp with rfl | hp
    · exact le_refl _
    · have := ih p hp
      omega

theorem apart : ps.Pairwise fun p r => p.start + p.source.length ≤ r.start := by
  induction h with
  | nil => exact .nil
  | cons line pos _ h ih => exact .cons (fun r hr => h.start_le r hr) ih

/-- A piece stands in the text where it says, and is what the rules have there. -/
theorem found : ∀ p ∈ ps, ∃ a c l b, cs = a ++ (c :: l ++ b) ∧
    p.start = pos + a.length ∧ p.source = c :: l ∧ StartsWith c (l ++ b) p.kind (l.length + 1) := by
  induction h with
  | nil => exact nofun
  | @cons k c l rest ps line pos starts h ih =>
    intro p hp
    rcases mem_cons.mp hp with rfl | hp
    · exact ⟨[], c, l, rest, rfl, rfl, rfl, starts⟩
    · obtain ⟨a, c', l', b, rfl, hs, rest⟩ := ih p hp
      refine ⟨c :: l ++ a, c', l', b, by simp, ?_, rest⟩
      rw [length_append, length_cons]
      omega

theorem covered : ∀ i < cs.length,
    ∃ p ∈ ps, p.start ≤ pos + i ∧ pos + i < p.start + p.source.length := by
  induction h with
  | nil => exact nofun
  | @cons k c l rest ps line pos starts h ih =>
    intro i hi
    by_cases hl : i < l.length + 1
    · exact ⟨_, .head _, Nat.le_add_right .., Nat.add_lt_add_left hl pos⟩
    · rw [length_append, length_cons] at hi
      obtain ⟨p, hp, inside⟩ := ih (i - (l.length + 1)) (by omega)
      exact ⟨p, .tail _ hp, by omega⟩

end Tiles

/-! ## Tokens and stray characters -/

/-- A character at which no token can start: it is handed to the report of unknown characters. -/
structure Stray where
  char : Char
  line : Nat
  place : Nat
  deriving DecidableEq, Repr

/-- The line that reports a stray character. -/
def Stray.notice (x : Stray) : String :=
  "Ignoring character '" ++ String.singleton x.char ++ "' line " ++ toString x.line ++ " column " ++
    toString x.place

/-- The stray character that a piece is, if it is one. -/
def stray? (p : Piece) : Option Stray :=
  match p.kind, p.source with
  | .stray, c :: _ => some ⟨c, p.line, p.start⟩
  | _, _ => none

/-- The stray characters of a text. -/
def strays (s : String) : List Stray := (pieces s).filterMap stray?

/-- A place in a backslash at the end of a line, the line end, or the tabs of the next line. -/
def InJoint (cs : List Char) (i : Nat) : Prop :=
  ∃ j ≤ i, cs[j]? = some '\\' ∧ cs[j + 1]? = some '\n' ∧ ∀ k, j + 2 ≤ k → k ≤ i → cs[k]? = some '\t'

/-- What the tokens and the stray characters are to a text. -/
structure TiledBy (cs : List Char) (tokens : List Token) (strays : List Stray) : Prop where
  /-- Tokens are not empty and do not reach beyond the end. -/
  spans : ∀ t ∈ tokens, t.start < t.stop ∧ t.stop ≤ cs.length
  /-- They stand one behind the other. -/
  apart : tokens.Pairwise fun t u => t.stop ≤ u.start
  /-- A character that belongs to no token is passed over for one of four reasons. -/
  between : ∀ i c, cs[i]? = some c → (∀ t ∈ tokens, ¬(t.start ≤ i ∧ i < t.stop)) →
    c = ' ' ∨ c = '\r' ∨ InJoint cs i ∨ ∃ x ∈ strays, x.place = i
  /-- No token can start at a stray character. -/
  stray : ∀ x ∈ strays, cs[x.place]? = some x.char ∧ isSpace x.char = false ∧
    (∀ f ∈ shapes, f.2 (cs.drop x.place) = none) ∧ x.char ∉ punctuation
  /-- Stray characters are met in text order. -/
  ordered : strays.Pairwise fun x y => x.place < y.place

theorem token?_eq_some {p : Piece} {t : Token} : p.token? = some t ↔
    ∃ k, p.kind = .token k ∧ t = ⟨k, valueOf k p.source, p.line, p.start, p.start + p.source.length⟩ := by
  unfold Piece.token?
  cases p.kind <;> simp [eq_comm]

theorem stray?_eq_some {p : Piece} {x : Stray} : stray? p = some x ↔
    p.kind = .stray ∧ ∃ l, p.source = x.char :: l ∧ p.line = x.line ∧ p.start = x.place := by
  obtain ⟨k, source, line, start⟩ := p
  obtain ⟨c, l, i⟩ := x
  unfold stray?
  cases k <;> cases source <;> simp

theorem mem_tokens {s : String} {t : Token} : t ∈ tokens s ↔ ∃ p ∈ pieces s, ∃ k, p.kind = .token k ∧
    t = ⟨k, valueOf k p.source, p.line, p.start, p.start + p.source.length⟩ :=
  mem_filterMap.trans (exists_congr fun _ => and_congr_right fun _ => token?_eq_some)

theorem mem_strays {s : String} {x : Stray} : x ∈ strays s ↔ ∃ p ∈ pieces s, p.kind = .stray ∧
    ∃ l, p.source = x.char :: l ∧ p.line = x.line ∧ p.start = x.place :=
  mem_filterMap.trans (exists_congr fun _ => and_congr_right fun _ => stray?_eq_some)

theorem tiles_pieces (s : String) : Tiles 1 0 s.toList (pieces s) := tiles_piecesFrom _ _ 1 0 (le_refl _)

theorem inJoint_of_starts {c : Char} {l b : List Char} (h : StartsWith c (l ++ b) .joint (l.length + 1))
    (a : List Char) {i : Nat} (hi : i < l.length + 1) : InJoint (a ++ (c :: l ++ b)) (a.length + i) := by
  cases h with
  | shape f hf h =>
    obtain rfl : f = joint := by simpa [shapes] using hf
    unfold joint at h
    split at h
    · next cs hcs =>
      have len := Option.some.inj h
      obtain ⟨d, l, rfl⟩ : ∃ d m, l = d :: m := exists_cons_of_ne_nil fun hl => by
          rw [hl, length_nil] at len
          omega
      obtain ⟨rfl, tail⟩ := cons.inj hcs
      obtain ⟨rfl, tabs⟩ := cons.inj tail
      rw [← show l ++ b = cs from tabs] at len
      have tabs : (l ++ b).takeWhile (· == '\t') = l := by
        have count : ((l ++ b).takeWhile (· == '\t')).length = l.length := by
          rw [length_cons] at len
          unfold run at len
          omega
        have := prefix_iff_eq_take.mp ( takeWhile_prefix (· == '\t') (l := l ++ b))
        rwa [count, take_left] at this
      refine ⟨a.length, Nat.le_add_right .., by simp, by simp, fun k hk hki => ?_⟩
      obtain ⟨m, rfl⟩ : ∃ m, k = a.length + (m + 2) := ⟨k - a.length - 2, by omega⟩
      have hm : m < l.length := by
        rw [length_cons] at hi
        omega
      have tab : l[m] = '\t' := by
        have all := all_takeWhile (p := (· == '\t')) (l := l ++ b)
        rw [tabs] at all
        simpa using all_eq_true.mp all _ (getElem_mem hm)
      rw [getElem?_append_right (Nat.le_add_right ..)]
      simp [getElem?_append_left hm, hm, tab]
    · cases h

/-- **Tokens tile their text.** -/
theorem tiledBy (s : String) : TiledBy s.toList (tokens s) (strays s) where
  spans t ht := by
    obtain ⟨p, hp, k, -, rfl⟩ := mem_tokens.mp ht
    obtain ⟨a, c, l, b, hs, start, source, -⟩ := (tiles_pieces s).found p hp
    rw [hs, source]
    simp only [length_append, length_cons]
    omega
  apart := by
    refine pairwise_filterMap.mpr ((tiles_pieces s).apart.imp fun {p r} h t ht u hu => ?_)
    obtain ⟨k, -, rfl⟩ := token?_eq_some.mp ht
    obtain ⟨k', -, rfl⟩ := token?_eq_some.mp hu
    exact h
  between i c hc free := by
    obtain ⟨p, hp, low, high⟩ := (tiles_pieces s).covered i (List.getElem?_eq_some_iff.mp hc).1
    obtain ⟨a, d, l, b, hs, start, source, starts⟩ := (tiles_pieces s).found p hp
    rw [Nat.zero_add] at low high start
    rw [start, source, length_cons] at high
    have first (hl : 1 = l.length + 1) : d = c := by
      obtain rfl : i = a.length := by omega
      rw [hs] at hc
      simpa using hc
    cases hk : p.kind with
    | token k =>
      refine absurd ⟨low, ?_⟩ (free _ (mem_tokens.mpr ⟨p, hp, k, hk, rfl⟩))
      rw [start, source]
      exact high
    | blank =>
      rw [hk] at starts
      generalize hn : l.length + 1 = n at starts
      cases starts with
      | blank h =>
        obtain rfl := first hn.symm
        simp only [isSpace, Bool.or_eq_true, beq_iff_eq] at h
        exact h.imp_right .inl
      | shape f hf => simp [shapes] at hf
    | joint =>
      rw [hk] at starts
      obtain ⟨j, rfl⟩ : ∃ j, i = a.length + j := ⟨i - a.length, by omega⟩
      refine .inr (.inr (.inl ?_))
      rw [hs]
      exact inJoint_of_starts starts a (by omega)
    | stray =>
      rw [hk] at starts
      generalize hn : l.length + 1 = n at starts
      cases starts with
      | shape f hf => simp [shapes] at hf
      | stray =>
        refine .inr (.inr (.inr ⟨⟨d, p.line, p.start⟩, mem_strays.mpr ⟨p, hp, hk, l, source, rfl, rfl⟩, ?_⟩))
        dsimp only
        omega
  stray x hx := by
    obtain ⟨p, hp, hk, l', source', -, start'⟩ := mem_strays.mp hx
    obtain ⟨a, c, l, b, hs, start, source, starts⟩ := (tiles_pieces s).found p hp
    obtain ⟨rfl, -⟩ := cons.inj (source'.symm.trans source)
    rw [hk] at starts
    have place : x.place = a.length := by omega
    rw [hs, place]
    generalize hn : l.length + 1 = n at starts
    cases starts with
    | shape f hf => simp [shapes] at hf
    | stray space none punct =>
      refine ⟨by simp, space, fun f hf => ?_, punct⟩
      rw [drop_left]
      exact none f hf
  ordered := by
    refine pairwise_filterMap.mpr ((tiles_pieces s).apart.imp fun {p r} h x hx y hy => ?_)
    obtain ⟨-, l, source, -, start⟩ := stray?_eq_some.mp hx
    obtain ⟨-, l', -, -, start'⟩ := stray?_eq_some.mp hy
    rw [source, length_cons] at h
    omega

theorem nodup_tokens (s : String) : (tokens s).Nodup :=
  (Pairwise.and_mem.mp (tiledBy s).apart).imp fun {t u} ⟨ht, _, h⟩ same => by
    have := ((tiledBy s).spans t ht).1
    rw [same] at h this
    omega

/-! ## What is printed -/

theorem notice?_eq (p : Piece) :
    p.notice? = (stray? p).bind fun x => if x.char = '\t' then none else some x.notice := by
  obtain ⟨k, source, line, start⟩ := p
  cases k <;> cases source <;> rfl

theorem notices_eq (s : String) : notices s = ((strays s).filter fun x => x.char ≠ '\t').map Stray.notice := by
  unfold notices strays
  induction pieces s with
  | nil => rfl
  | cons p ps ih =>
    rw [filterMap_cons, filterMap_cons, notice?_eq]
    cases stray? p with
    | none => exact ih
    | some x =>
      dsimp only [Option.bind_some]
      by_cases hx : x.char = '\t'
      · rw [if_pos hx, filter_cons_of_neg (by simpa using hx)]
        exact ih
      · rw [if_neg hx, filter_cons_of_pos (by simpa using hx), map_cons, ← ih]

/-- Grouping pieces loses none of the tokens and notices, and changes no order. -/
theorem group_eq (ps : List Piece) : ∀ waiting, (group waiting ps).lexemes.map (·.token) = ps.filterMap Piece.token? ∧
      (group waiting ps).lexemes.flatMap (·.notices) ++ (group waiting ps).closing =
        waiting.reverse ++ ps.filterMap Piece.notice? := by
  induction ps with
  | nil => intro waiting; simp [group]
  | cons p ps ih =>
    intro waiting
    rw [group, filterMap_cons, filterMap_cons]
    cases ht : p.token? with
    | some t =>
      have none : p.notice? = none := by
        obtain ⟨k, hk, -⟩ := token?_eq_some.mp ht
        unfold Piece.notice?
        rw [hk]
      simp [none, ih []]
    | none =>
      cases hn : p.notice? with
      | none => exact ih waiting
      | some n => simpa using ih (n :: waiting)

/-- **Tokens tile their text.** For every text: the tokens are spans of it that are not empty and stand
one behind the other; a character outside of them is a blank or a carriage return, belongs to a line
that is joined to the next one, or is a stray character, at which no token can start. Each stray
character but a tab is reported by one line with its place, in text order. The reader of a script is
handed these tokens and prints these lines. -/
theorem tokens_tile_text (s : String) : TiledBy s.toList (tokens s) (strays s) ∧
      notices s = ((strays s).filter fun x => x.char ≠ '\t').map Stray.notice ∧
      (scan s).lexemes.map (·.token) = tokens s ∧
      (scan s).lexemes.flatMap (·.notices) ++ (scan s).closing = notices s :=
  ⟨tiledBy s, notices_eq s, (group_eq (pieces s) []).1, (group_eq (pieces s) []).2⟩

end GdScribe.Scan
