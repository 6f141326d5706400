import GdScribe.Proofs.Token.Tiling

/-!
# Names between blanks

Names that blanks keep apart are cut into one token each, unless one starts with `not`: this operator is read
wherever a word starts with it, while the other two operators that are words end with their word.

Principal result: `names_single_tokens_iff`.
-/

namespace GdScribe.Scan

open List

/-- A name: a letter or an underscore, and letters, digits and underscores behind it. -/
abbrev IsName (n : String) : Prop :=
  n.toList.head?.any isNameStart = true ∧ ∀ c ∈ n.toList, isNamePart c = true

/-- The words of a text from a place on. -/
def wordsFrom (line pos : Nat) (cs : List Char) : List Word :=
  ((piecesFrom 0 line pos cs).filterMap Piece.token?).map Token.word

/-- The first word of a text that starts with a name is that name, or the operator with which it starts. -/
theorem wordsFrom_name {n : String} (hn : IsName n) (free : n ∉ ["not", "and", "or"]) {rest : List Char}
    (ends : NameEnds rest) (line pos : Nat) (ws : List Word) :
    wordsFrom line pos (n.toList ++ rest) = (.text, n) :: ws ↔
      ¬ "not".toList <+: n.toList ∧ wordsFrom line (pos + n.length) rest = ws := by
  by_cases negated : "not".toList <+: n.toList
  · refine iff_of_false (fun h => ?_) fun h => h.1 negated
    obtain ⟨t, ht⟩ := negated
    have cut : wordsFrom line pos ("not".toList ++ (t ++ rest)) =
        (.unary, "not") :: wordsFrom line (pos + 3) (t ++ rest) :=
      rfl
    rw [← ht, append_assoc, cut] at h
    cases h
  · have word : IsIdentifier n := ⟨hn.1, hn.2, fun h => free (.tail _ h), negated⟩
    obtain ⟨c, cs, hcs⟩ : ∃ c cs, n.toList = c :: cs := exists_cons_of_ne_nil fun h => by simpa [h] using hn.1
    have cut : wordsFrom line pos (n.toList ++ rest) = (.text, n) :: wordsFrom line (pos + n.length) rest := by
      have size : pos + 1 + cs.length = pos + n.length := by
        rw [← String.length_toList, hcs, length_cons]
        omega
      rw [wordsFrom, hcs, piecesFrom_eq (pieceAt_identifier word hcs ends), size, ← hcs]
      exact congrArg (fun v => (TokenKind.text, v) :: wordsFrom line _ rest) String.ofList_toList
    rw [cut, List.cons.injEq, and_iff_right rfl, and_iff_right negated]

/-- Names after a first one, each behind a blank. -/
theorem wordsFrom_names (n : String) (ns : List String) (h : ∀ m ∈ n :: ns, IsName m ∧ m ∉ ["not", "and", "or"])
    (line pos : Nat) : wordsFrom line pos (n.toList ++ ns.flatMap (' ' :: ·.toList)) = (n :: ns).map ((.text, ·)) ↔
      ∀ m ∈ n :: ns, ¬ "not".toList <+: m.toList := by
  obtain ⟨hn, free⟩ := h n mem_cons_self
  induction ns generalizing n line pos with
  | nil =>
    have ends : NameEnds [] := nofun
    rw [flatMap_nil, map_singleton, wordsFrom_name hn free ends, forall_mem_singleton]
    exact and_iff_left rfl
  | cons m ns ih =>
    obtain ⟨hm, free'⟩ := h m (.tail n mem_cons_self)
    have ends (r : List Char) : NameEnds (' ' :: r) := fun d hd => Option.some.inj hd ▸ rfl
    have blank (line pos : Nat) (r : List Char) : wordsFrom line pos (' ' :: r) = wordsFrom line (pos + 1) r := rfl
    rw [map_cons, flatMap_cons, cons_append, wordsFrom_name hn free (ends _), blank,
      ih m (fun x hx => h x (.tail n hx)) _ _ hm free', forall_mem_cons (l := m :: ns)]

/-- **Names are single tokens**, unless they start with `not`. For every list of names, none of which is one of the
three operators that are words: joined by blanks, they are cut into one token for each name, exactly if none of them
starts with `not`. -/
theorem names_single_tokens_iff (ns : List String) (h : ∀ n ∈ ns, IsName n ∧ n ∉ ["not", "and", "or"]) :
    (tokens (String.intercalate " " ns)).map Token.word = ns.map ((.text, ·)) ↔
      ∀ n ∈ ns, ¬ "not".toList <+: n.toList := by
  cases ns with
  | nil => exact ⟨fun _ => nofun, fun _ => rfl⟩
  | cons n ns =>
    have joined : (String.intercalate " " (n :: ns)).toList = n.toList ++ ns.flatMap (' ' :: ·.toList) := by
      induction ns generalizing n with
      | nil => simp
      | cons m ns ih =>
        rw [String.intercalate_cons_cons, String.toList_append, String.toList_append, ih _ fun x hx => h x (.tail n hx)]
        simp
    rw [tokens, pieces, joined]
    exact wordsFrom_names n ns h 1 0

theorem android_single_token : (tokens (String.intercalate " " ["android", "_nor", "oar2"])).map Token.word =
    ["android", "_nor", "oar2"].map ((.text, ·)) :=
  (names_single_tokens_iff _ (by decide)).mpr (by decide)

/-- A name that starts with `not` is cut in two. -/
theorem note_cut_in_two : (tokens "note").map Token.word = [(.unary, "not"), (.text, "e")] := by decide +kernel

end GdScribe.Scan
