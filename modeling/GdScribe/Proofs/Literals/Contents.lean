import GdScribe.Proofs.Reader.Twins
import GdScribe.Proofs.Target.Closing

/-!
# The contents of string literals

A script is compared with the one in which a string literal has other contents. If the literal is read
as a value, they differ in it only where it is written.

* `IsWritten`: a literal as it is written.
* `otherContents`: what may differ between the two runs.

Principal result: `CSharp.literal_contents_inert`.
-/

namespace GdScribe

open Target List

/-- A literal as it is written: it starts with a quote, and has neither line ends nor braces. -/
structure IsWritten (x : List Char) : Prop where
  opens : ∃ inner, x = '"' :: inner
  plain : ∀ c ∈ x, c ≠ '\n' ∧ c ≠ '\x7b' ∧ c ≠ '\x7d'

/-- One text stands in the place of another. -/
def Swaps (x y : String) (u v : List Char) : Prop := u = x.toList ∧ v = y.toList

namespace Patched

theorem tidy_plain {limit : Nat} {l : List Char} (h : '\n' ∉ l) (done : String) :
    l.foldl (TidyState.step limit) ⟨0, [], done⟩ = ⟨0, [], done ++ String.ofList l⟩ := by
  induction l generalizing done with
  | nil => simp
  | cons c l ih =>
    obtain ⟨hc, hl⟩ := ne_and_not_mem_of_not_mem_cons h
    have step : TidyState.step limit ⟨0, [], done⟩ c = ⟨0, [], done.push c⟩ := by
      unfold TidyState.step
      rw [if_neg (Ne.symm hc)]
      simp
    rw [foldl_cons, step, ih hl]
    congr 1
    apply String.toList_injective
    simp

theorem tidy_written {limit : Nat} {x : List Char} (hx : IsWritten x) (s : TidyState) :
    x.foldl (TidyState.step limit) s = ⟨0, [], s.done ++ String.ofList s.blanks.reverse ++ String.ofList x⟩ := by
  obtain ⟨inner, rfl⟩ := hx.opens
  have rest : '\n' ∉ inner := fun h => (hx.plain _ (.tail _ h)).1 rfl
  have step : TidyState.step limit s '"' =
      ⟨0, [], s.done ++ String.ofList s.blanks.reverse ++ String.singleton '"'⟩ := by
    unfold TidyState.step
    rw [if_neg nofun, if_neg (by simp), if_neg (by simp)]
  rw [foldl_cons, step, tidy_plain rest]
  congr 1
  apply String.toList_injective
  simp

theorem closing_plain {r : String} {l : List Char} (h : ∀ c ∈ l, c ≠ '\x7b' ∧ c ≠ '\x7d') (s : Int × String) :
    l.foldl (closingBraceStep r) s = (s.1, s.2 ++ String.ofList l) := by
  have opens : l.count '\x7b' = 0 := count_eq_zero.mpr fun hc => (h _ hc).1 rfl
  have closes : l.count '\x7d' = 0 := count_eq_zero.mpr fun hc => (h _ hc).2 rfl
  rw [foldl_closing (n := s.1) fun a b hab => (h '\x7d' (by rw [hab.1]; simp)).2 rfl, opens, closes]
  simp

end Patched

namespace CSharp

open Read Patched

variable {old new : String}

/-- Texts that differ in a written literal. -/
abbrev SwappedText (old new : String) : String → String → Prop :=
  PatchedText (Swaps (stringLiteral old) (stringLiteral new))

/-- The edits of the target respect texts that differ in a written literal. -/
theorem wording_swaps (ho : IsWritten (stringLiteral old).toList) (hn : IsWritten (stringLiteral new).toList) :
    Wording (SwappedText old new) (fun a b => a = b ∨ a = old ∧ b = new) (SwappedText old new) := by
  have written {u v : List Char} (h : Swaps (stringLiteral old) (stringLiteral new) u v) :
      IsWritten u ∧ IsWritten v := by
    obtain ⟨rfl, rfl⟩ := h
    exact ⟨ho, hn⟩
  have append {a b a' b' : String} (h : SwappedText old new a b) (h' : SwappedText old new a' b') :
      SwappedText old new (a ++ a') (b ++ b') := by
    rw [SwappedText, PatchedText, String.toList_append, String.toList_append]
    exact h.append h'
  exact {
    refl := fun _ => .refl _
    contents_refl := fun _ => .inl rfl
    append := append
    isEmpty := fun {a b} h => by
      have nonempty := h.eq_nil_iff fun h => by
        obtain ⟨⟨⟨_, rfl⟩, -⟩, ⟨⟨_, rfl⟩, -⟩⟩ := written h
        exact ⟨nofun, nofun⟩
      rw [Bool.eq_iff_iff]
      simpa using nonempty
    indented := fun n {a b} h => by
      unfold Page.indented
      rw [SwappedText, PatchedText, Text.toList_replaceAll _ _ (by decide), Text.toList_replaceAll _ _ (by decide)]
      show Patched _ (Text.swap ['\n'] _ 0 _) (Text.swap ['\n'] _ 0 _)
      rw [Text.swap_singleton, Text.swap_singleton]
      refine h.flatMap fun {u v} hp => ?_
      have same {x : List Char} (hx : IsWritten x) :
          (x.flatMap fun c => if c = '\n' then ("\n" ++ Text.tabs n).toList else [c]) = x := by
        rw [flatMap_congr fun c hc => if_neg (hx.plain c hc).1, flatMap_singleton']
      rw [same (written hp).1, same (written hp).2]
      exact .single hp
    string := fun {a b} h => by
      rcases h with rfl | ⟨rfl, rfl⟩
      · exact .refl _
      · exact .single ⟨rfl, rfl⟩
    first := fun h h' => by
      have brace : "\x7b".toList = ['\x7b'] := rfl
      rw [SwappedText, PatchedText, Text.toList_replaceFirst _ _ brace, Text.toList_replaceFirst _ _ brace]
      refine swapFirst (fun hp => ⟨fun hc => ?_, fun hc => ?_⟩) h' h
      · exact ((written hp).1.plain _ hc).2.1 rfl
      · exact ((written hp).2.plain _ hc).2.1 rfl
    close := fun {a b r r'} h h' => by
      have walked := h.foldl (R := fun s t : Int × String => s.1 = t.1 ∧ SwappedText old new s.2 t.2)
        (f := closingBraceStep r) (g := closingBraceStep r') ?_ ?_ (0, "") (0, "") ⟨rfl, .refl _⟩
      · exact walked.2
      · rintro ⟨n, s⟩ ⟨m, t⟩ c ⟨hd, hs⟩
        obtain rfl : n = m := hd
        have push : SwappedText old new (s.push c) (t.push c) := by
          rw [SwappedText, PatchedText, String.toList_push, String.toList_push]
          exact Patched.append hs (.refl [c])
        unfold closingBraceStep
        split
        · exact ⟨rfl, push⟩
        · split
          · split
            · exact ⟨rfl, append hs h'⟩
            · exact ⟨rfl, push⟩
          · exact ⟨rfl, push⟩
      · intro u v hp s t hst
        rw [closing_plain fun c hc => ((written hp).1.plain c hc).2,
          closing_plain fun c hc => ((written hp).2.plain c hc).2]
        refine ⟨hst.1, append hst.2 ?_⟩
        rw [SwappedText, PatchedText, String.toList_ofList, String.toList_ofList]
        exact .single hp
    finished := fun {a b} h => by
      have walked := h.foldl (R := fun s t : TidyState => s.breaks = t.breaks ∧ s.blanks = t.blanks ∧
          SwappedText old new s.done t.done)
        (f := TidyState.step maxLineEnds) (g := TidyState.step maxLineEnds) ?_ ?_ {} {} ⟨rfl, rfl, .refl _⟩
      · exact append (.refl _) walked.2.2
      · rintro ⟨k, l, s⟩ ⟨k', l', t⟩ c ⟨hk, hl, hs⟩
        obtain rfl : k = k' := hk
        obtain rfl : l = l' := hl
        unfold TidyState.step
        split
        · refine ⟨rfl, rfl, ?_⟩
          split
          · rw [SwappedText, PatchedText, String.toList_push, String.toList_push]
            exact Patched.append hs (.refl [c])
          · exact hs
        · split
          · exact ⟨rfl, rfl, hs⟩
          · split
            · exact ⟨rfl, rfl, hs⟩
            · exact ⟨rfl, rfl, append (append hs (.refl _)) (.refl _)⟩
      · intro u v hp s t ⟨_, hl, hs⟩
        rw [tidy_written (written hp).1, tidy_written (written hp).2, hl]
        refine ⟨rfl, rfl, append (append hs (.refl _)) ?_⟩
        rw [SwappedText, PatchedText, String.toList_ofList, String.toList_ofList]
        exact .single hp
    result_refl := fun _ => .refl _ }

theorem isWritten_stringLiteral {v : String} (h : ∀ c ∈ v.toList, c ≠ '\n' ∧ c ≠ '\x7b' ∧ c ≠ '\x7d') :
    IsWritten (stringLiteral v).toList := by
  have oneLine : '\n' ∉ v.toList := fun hn => (h _ hn).1 rfl
  have text : (stringLiteral v).toList = '"' :: ((Text.replaceAll v "\"" "\\\"").toList ++ ['"']) := by
    simp [stringLiteral, oneLine]
  rw [text]
  refine ⟨⟨_, rfl⟩, fun c hc => ?_⟩
  simp only [mem_cons, mem_append, not_mem_nil, or_false] at hc
  rcases hc with rfl | hc | rfl
  · decide
  · rcases Text.mem_replaceAll (by decide) hc with hc | hc
    · exact h c hc
    · revert hc
      simp only [show "\\\"".toList = ['\\', '"'] by decide, mem_cons, not_mem_nil, or_false]
      rintro (rfl | rfl) <;> decide
  · decide

end CSharp

/-! ## The tokens of the two scripts -/

namespace Scan

variable {q : Char} {u old rest : List Char} {t : Token}

/-- A script around the contents of a literal. -/
def scriptWith (u : List Char) (q : Char) (contents rest : List Char) : String :=
  String.ofList (u ++ q :: (contents ++ q :: rest))

theorem toList_scriptWith (u : List Char) (q : Char) (contents rest : List Char) :
    (scriptWith u q contents rest ++ "\n").toList = u ++ q :: (contents ++ q :: (rest ++ ['\n'])) := by
  simp [scriptWith]

/-- A string token in a script, by the place where it stands. -/
structure StandsAt (t : Token) (u : List Char) (q : Char) (old rest : List Char) : Prop where
  mem : t ∈ tokens (scriptWith u q old rest ++ "\n")
  kind : t.kind = .string
  start : t.start = u.length
  stop : t.stop = u.length + (old.length + 2)

theorem StandsAt.piece (h : StandsAt t u q old rest) : ⟨.token .string, q :: (old ++ [q]), t.line, 0 + u.length⟩ ∈
        piecesFrom 0 1 0 (u ++ q :: (old ++ q :: (rest ++ ['\n']))) ∧
      t = ⟨.string, valueOf .string (q :: (old ++ [q])), t.line, u.length, u.length + (old.length + 2)⟩ := by
  obtain ⟨mem, kind, start, stop⟩ := h
  obtain ⟨p, hp, k, hk, rfl⟩ := mem_tokens.mp mem
  obtain rfl : k = .string := kind
  obtain ⟨a, c, l, b, hs, hstart, source, -⟩ := (tiles_pieces _).found p hp
  rw [toList_scriptWith] at hs
  dsimp only at start stop
  have size : (c :: l).length = (q :: (old ++ [q])).length := by
    rw [← source]
    simp
    omega
  obtain ⟨rfl, tail⟩ := append_inj hs (by omega)
  have shape : q :: (old ++ q :: (rest ++ ['\n'])) = (q :: (old ++ [q])) ++ (rest ++ ['\n']) := by simp
  rw [shape] at tail
  obtain ⟨whole, -⟩ := append_inj tail size.symm
  rw [← whole] at source
  rw [pieces, toList_scriptWith] at hp
  obtain ⟨kind, src, line, place⟩ := p
  subst hk source
  obtain rfl : place = u.length := start
  refine ⟨by simpa using hp, ?_⟩
  rw [stop]

theorem tokens_moved {ps rs : List Piece} (h : Forall₂ Moved ps rs) :
    Forall₂ (fun t u : Token => t.kind = u.kind ∧ t.value = u.value) (ps.filterMap Piece.token?)
      (rs.filterMap Piece.token?) := by
  induction h with
  | nil => exact .nil
  | @cons p r ps rs hp _ ih =>
    rw [filterMap_cons, filterMap_cons]
    unfold Piece.token?
    rw [hp.kind, hp.source]
    cases r.kind with
    | token k => exact .cons ⟨rfl, rfl⟩ ih
    | _ => exact ih

end Scan

namespace CSharp

open Read Scan

/-- What may differ between two scripts in which a literal has other contents. -/
def otherContents (t : Token) (new : String) : Variation where
  changed := (· = t)
  shifted := True
  contents a b := a = b ∨ a = t.value ∧ b = new
  text := SwappedText t.value new
  result := SwappedText t.value new
  mark := some (stringLiteral t.value).toList
  table := Eq

variable {q : Char} {u old new rest : List Char} {t : Token}

/-- Contents that are neither looked for nor edited: none of the words of the language, without line ends
and braces. -/
structure IsInert (contents : String) : Prop where
  word : contents ∉ testedWords
  plain : ∀ c ∈ contents.toList, c ≠ '\n' ∧ c ≠ '\x7b' ∧ c ≠ '\x7d'

theorem otherContents_sound (kind : t.kind = .string) (ht : IsInert t.value) {new : String}
    (hnew : IsInert new) : (otherContents t new).Sound where
  wording := wording_swaps (isWritten_stringLiteral ht.plain) (isWritten_stringLiteral hnew.plain)
  unmarked h clear := String.toList_injective
    (Patched.eq_of_not_marked (fun hp => ⟨_, rfl, hp.1 ▸ infix_rfl⟩) h clear)
  literal h := h ▸ kind
  shifted _ := trivial
  table_refl _ := rfl
  alike h n := congrArg (Table.find? · n) h
  declare h name base := congrArg (ClassTable.declare · name base) h
  update h name f := congrArg (ClassTable.update · name f) h

theorem tokens_otherContents (hq : q ∈ quotes) (stands : StandsAt t u q old rest) (henc : Enclosable new)
    (apart : Apart q u new (rest ++ ['\n'])) (ht : IsInert t.value) (hnew : IsInert (String.ofList new)) :
    List.Forall₂ (otherContents t (String.ofList new)).token (tokens (scriptWith u q old rest ++ "\n"))
      (tokens (scriptWith u q new rest ++ "\n")) := by
  have same (a : Token) : (otherContents t (String.ofList new)).token a a := ⟨.inr rfl, rfl, .inl rfl⟩
  have changed {t' : Token} (hk : t'.kind = .string) (hv : t'.value = String.ofList new) :
      (otherContents t (String.ofList new)).token t t' :=
    ⟨.inl trivial, stands.kind.trans hk.symm, .inr ⟨rfl, .inr ⟨rfl, hv⟩, ht.word, hv ▸ hnew.word⟩⟩
  obtain ⟨piece, ht'⟩ := stands.piece
  obtain ⟨-, ps, h1, h2⟩ := piecesFrom_exchange hq henc _ (Nat.le_refl _) apart piece
  have value : valueOf .string (q :: (new ++ [q])) = String.ofList new := by
    have inner : ((q :: (new ++ [q])).drop 1).take ((q :: (new ++ [q])).length - 2) = new := by simp
    unfold valueOf
    dsimp only
    rw [inner]
    refine Text.replaceAll_of_not_mem _ (x := '\\') (by simp) ?_
    rw [String.toList_ofList]
    exact fun h => (henc _ h).2.1 rfl
  have literal (source : List Char) (l p : Nat) : (⟨.token .string, source, l, p⟩ : Piece).token? =
      some ⟨.string, valueOf .string source, l, p, p + source.length⟩ := rfl
  rw [tokens, tokens, pieces, pieces, toList_scriptWith, toList_scriptWith, h1, h2, filterMap_append,
    filterMap_append, filterMap_cons_some (literal ..), filterMap_cons_some (literal ..)]
  refine rel_append (forall₂_same.mpr fun a _ => same a) (.cons ?_ ?_)
  · have token : (⟨.string, valueOf .string (q :: (old ++ [q])), t.line, 0 + u.length,
        0 + u.length + (q :: (old ++ [q])).length⟩ : Token) = t := by
      rw [ht']
      simp
    rw [token, value]
    exact changed rfl rfl
  · exact (tokens_moved (piecesFrom_moved ..)).imp fun a b h => ⟨.inl trivial, h.1, .inl h.2⟩

/-- **The contents of a string literal are inert** if they are none of the words that the reader looks for.
For every script and every string token in it: with other contents between the same quotes, the
run ends alike, leaves the same classes, and writes the same text but for the literal itself. It takes that
the literal was read as a value, and that the target did not look into a text that has the written
literal in it, or report a line: no accessor and no `await` has it, and no line was dropped. -/
theorem literal_contents_inert (z : Settings) (name : String) (desk : Desk (Pages State)) (hq : q ∈ quotes)
    (stands : StandsAt t u q old rest) (henc : Enclosable new) (apart : Apart q u new (rest ++ ['\n']))
    (ht : IsInert t.value) (hnew : IsInert (String.ofList new)) :
    let made := run (writer z) name (scriptWith u q old rest) desk
    let other := run (writer z) name (scriptWith u q new rest) desk
    t ∈ made.strings → (∀ r ∈ made.asked, ¬ (otherContents t (String.ofList new)).Strays r) →
      made.fault ≠ some .endless → other.fault ≠ some .endless →
      made.fault = other.fault ∧ made.desk.classes = other.desk.classes ∧
        SwappedText t.value (String.ofList new) made.desk.pages.page other.desk.pages.page ∧
        SwappedText t.value (String.ofList new) made.desk.pages.own.result other.desk.pages.own.result := by
  intro made other value clear ends ends'
  have sound := otherContents_sound stands.kind ht hnew
  have tokens := tokens_otherContents hq stands henc apart ht hnew
  have desks : (otherContents t (String.ofList new)).desk desk desk :=
    ⟨rfl, rfl, .refl _, forall₂_same.mpr fun _ _ => .refl _, sound.wording.state_refl _⟩
  obtain ⟨fault, alike⟩ := run_twins sound z name tokens desks (fun x _ hx => hx ▸ value) clear ends ends'
  exact ⟨fault, alike.classes, alike.page, alike.own.result⟩

/-- Whether a target may look into the text of a request, or a place is told. -/
def Request.mayStray : Request → Bool
  | .accessor _ _ | .await _ _ | .comment _ => true
  | _ => false

theorem not_strays_of_all {V : Variation} {asked : List Request} (h : asked.all (!Request.mayStray ·) = true) :
    ∀ r ∈ asked, ¬ V.Strays r := by
  intro r hr strays
  have safe := all_eq_true.mp h r hr
  cases r <;> first | exact strays | cases safe

theorem literal_contents_inert_variable :
    let made := run (writer {}) "S" (scriptWith "var x = ".toList '"' "ab".toList []) ⟨{}, #[], start⟩
    let other := run (writer {}) "S" (scriptWith "var x = ".toList '"' "c d".toList []) ⟨{}, #[], start⟩
    made.fault = other.fault ∧ made.desk.classes = other.desk.classes ∧
      SwappedText "ab" (String.ofList "c d".toList) made.desk.pages.page other.desk.pages.page ∧
      SwappedText "ab" (String.ofList "c d".toList) made.desk.pages.own.result other.desk.pages.own.result := by
  have inert := @literal_contents_inert '"' "var x = ".toList "ab".toList "c d".toList []
    ⟨.string, "ab", 1, 8, 12⟩ {} "S" ⟨{}, #[], start⟩ (by decide) ⟨by decide +kernel, rfl, by decide, by decide⟩
    (by decide +kernel) (by decide +kernel) ⟨by decide +kernel, by decide +kernel⟩
    ⟨by decide +kernel, by decide +kernel⟩
  exact inert (by decide +kernel) (not_strays_of_all (by decide +kernel)) (by decide +kernel) (by decide +kernel)

/-- Contents that are a word of the language are read as that word. -/
theorem literal_read_as_word :
    let page := fun contents => (run (writer {}) "S" (scriptWith "var x = ".toList '"' contents [])
      ⟨{}, #[], start⟩).desk.pages.page
    Text.occursIn "public string X = \"ab\";" (page "ab".toList) = true ∧
      Text.occursIn "public bool X = true;" (page "true".toList) = true := by
  decide +kernel

end CSharp

end GdScribe
