import GdScribe.Proofs.Token.Tiling
import GdScribe.Target.CPlusPlus.Phrase
import GdScribe.Target.CSharp.Writer

/-!
# String literals as they are written

A quote in a string loses the backslash before it when the string is read, and gets one when it is written.

* `isClosed`: the last character of a literal closes it, and none before.
* `settled`: a text that leaves neither a quote nor its end escaped.

Principal results: `Scan.double_quoted_written_back` and `literal_closed_iff`.
-/

namespace GdScribe

open List

/-- A text with a backslash before each `x`. -/
def escape (x : Char) (cs : List Char) : List Char := cs.flatMap fun c => if c = x then ['\\', x] else [c]

theorem toList_replaceAll_one {s old new : String} {x : Char} (h : old.toList = [x]) :
    (Text.replaceAll s old new).toList = s.toList.flatMap fun c => if c = x then new.toList else [c] := by
  rw [Text.toList_replaceAll _ _ (by rintro rfl; cases h), h, Text.swap_singleton]

theorem CSharp.toList_stringLiteral (v : String) : (stringLiteral v).toList =
    if '\n' ∈ v.toList then '@' :: '"' :: (v.toList ++ ['"']) else '"' :: (escape '"' v.toList ++ ['"']) := by
  have quotes : (Text.replaceAll v "\"" "\\\"").toList = escape '"' v.toList := toList_replaceAll_one rfl
  by_cases h : '\n' ∈ v.toList <;> simp [stringLiteral, h, quotes]

theorem CPlusPlus.toList_stringLiteral (v : String) :
    (stringLiteral v).toList = '"' :: (escape '"' (escape '\n' v.toList) ++ ['"']) := by
  have lines : (Text.replaceAll v "\n" "\\\n").toList = escape '\n' v.toList := toList_replaceAll_one rfl
  have quotes (s : String) : (Text.replaceAll s "\"" "\\\"").toList = escape '"' s.toList := toList_replaceAll_one rfl
  simp [stringLiteral, quotes, lines]

/-! ## Reading and writing back -/

namespace Scan

/-- Each quote in a text that follows a quote has a backslash before it. -/
def Guarded (q : Char) (cs : List Char) : Prop := ∀ a b, cs = a ++ q :: b → a.getLastD q = '\\'

theorem stringEnd_guarded {q before : Char} {cs : List Char} {n : Nat} (h : stringEnd q before cs = some n) :
    ∃ inner, cs.take n = inner ++ [q] ∧ ∀ a b, inner = a ++ q :: b → a.getLastD before = '\\' := by
  induction cs generalizing before n with
  | nil => cases h
  | cons c cs ih =>
    rw [stringEnd] at h
    split at h
    · next hc =>
      cases h
      exact ⟨[], by simp [hc.1], fun a b hab => by simp at hab⟩
    · next hc =>
      split at h
      · cases h
      · obtain ⟨k, hk, rfl⟩ := Option.map_eq_some_iff.mp h
        obtain ⟨inner, hi, guarded⟩ := ih hk
        refine ⟨c :: inner, by rw [take_succ_cons, hi, cons_append], fun a b hab => ?_⟩
        cases a with
        | nil => exact not_not.mp fun hb => hc ⟨(cons.inj hab).1, hb⟩
        | cons d a =>
          obtain ⟨rfl, rest⟩ := cons.inj hab
          rw [getLastD_cons]
          exact guarded a b rest

/-- The walk that takes backslashes from quotes is undone: no quote stands without its backslash. -/
theorem escape_swap {cs : List Char} (h : Guarded '"' cs) :
    escape '"' (Text.swap ['\\', '"'] ['"'] 0 cs) = cs := by
  revert h
  refine Text.swap_induction (P := fun s u => Guarded '"' s → escape '"' u = s) (by simp) (fun _ => rfl)
    (fun t u ih h => ?_) (fun c t u hp ih h => ?_) cs
  · have rest := ih fun a b hab => by
      have last := h ('\\' :: '"' :: a) b (by rw [hab]; rfl)
      rwa [getLastD_cons, getLastD_cons] at last
    exact congrArg ('\\' :: '"' :: ·) rest
  · have hc : c ≠ '"' := fun hc => by simpa using h [] t (by rw [hc]; rfl)
    have rest := ih fun a b hab => by
      have last := h (c :: a) b (by rw [hab]; rfl)
      cases a with
      | nil => exact absurd ⟨b, by rw [hab, ← (show c = '\\' from last)]; rfl⟩ hp
      | cons d a => simpa using last
    have step : escape '"' (c :: u) = c :: escape '"' u := by simp [escape, hc]
    rw [step, rest]

/-- A string token by the place where it stands. -/
theorem mem_tokens_string {s : String} {t : Token} (ht : t ∈ tokens s) (hk : t.kind = .string) :
    ∃ a q inner b, s.toList = a ++ (q :: (inner ++ [q]) ++ b) ∧ t.start = a.length ∧
      t.stop = a.length + (inner.length + 2) ∧ t.value = valueOf .string (q :: (inner ++ [q])) ∧
      '\n' ∉ inner ∧ Guarded q inner := by
  obtain ⟨p, hp, k, kind, rfl⟩ := mem_tokens.mp ht
  obtain rfl : k = .string := hk
  obtain ⟨a, q, l, b, hs, start, source, starts⟩ := (tiles_pieces s).found p hp
  rw [kind] at starts
  generalize hn : l.length + 1 = n at starts
  cases starts with
  | shape f hf h =>
    obtain rfl : f = string := by simpa [shapes] using hf
    rw [string] at h
    split at h
    · next hq =>
      obtain ⟨m, hm, rfl⟩ := Option.map_eq_some_iff.mp h
      obtain rfl : l.length = m := by omega
      obtain ⟨inner, hi, guarded⟩ := stringEnd_guarded hm
      have line := (stringEnd_bounds hm).2.2 (by rcases hq with rfl | rfl <;> decide)
      rw [take_left] at hi line
      subst hi
      exact ⟨a, q, inner, b, hs, by simp [start], by simp [start, source], by simp [source],
        fun h => line (mem_append_left _ h), guarded⟩
    · cases h

/-- **Double-quoted strings come out as they went in.** For every text and every string token in it that
starts with a double quote, both targets write for its value what the token covers in the text. -/
theorem double_quoted_written_back (z : Target.Settings) (s : String) (t : Token) (ht : t ∈ tokens s)
    (hk : t.kind = .string) (hq : s.toList[t.start]? = some '"') :
    let source := String.ofList ((s.toList.take t.stop).drop t.start)
    (CSharp.dialect z).expr (.text t.value) = Page.write source ∧
      (CPlusPlus.dialect z).expr (.text t.value) = Page.write source := by
  obtain ⟨a, q, inner, b, hs, start, stop, value, line, guarded⟩ := mem_tokens_string ht hk
  obtain rfl : q = '"' := by simpa [hs, start] using hq
  have covered : (s.toList.take t.stop).drop t.start = '"' :: (inner ++ ['"']) := by
    rw [hs, start, stop, take_length_add_append, drop_left, take_left' (by simp)]
  have read : t.value.toList = Text.swap ['\\', '"'] ['"'] 0 inner := by
    rw [value]
    unfold valueOf
    dsimp only
    rw [Text.toList_replaceAll _ _ (by simp)]
    simp
  have oneLine : '\n' ∉ t.value.toList := fun h => by
    rw [read] at h
    exact (Text.mem_swap (by simp) h).elim line (by decide)
  have sharp : CSharp.stringLiteral t.value = String.ofList ('"' :: (inner ++ ['"'])) := by
    apply String.toList_injective
    rw [CSharp.toList_stringLiteral, if_neg oneLine, read, escape_swap guarded, String.toList_ofList]
  have plus : CPlusPlus.stringLiteral t.value = CSharp.stringLiteral t.value := by
    simp [CPlusPlus.stringLiteral, CSharp.stringLiteral, oneLine, Text.replaceAll_of_not_mem (x := '\n')]
  dsimp only
  rw [covered, Dialect.expr, Dialect.expr]
  exact ⟨congrArg Page.write sharp, congrArg Page.write (plus.trans sharp)⟩

theorem escapes_written_back :
    let s := "var s = \"\\n \\\\ \\\" \""
    let t : Token := ⟨.string, "\\n \\\\ \" ", 1, 8, 19⟩
    let source := String.ofList ((s.toList.take 19).drop 8)
    t ∈ tokens s ∧ (CSharp.dialect {}).expr (.text t.value) = Page.write source ∧
      (CPlusPlus.dialect {}).expr (.text t.value) = Page.write source := by
  intro s t source
  have mem : t ∈ tokens s := by decide +kernel
  exact ⟨mem, double_quoted_written_back {} s t mem rfl (by decide +kernel)⟩

end Scan

/-! ## Closed literals -/

/-- The last character, and none before, is a quote that no backslash escapes; the first argument tells whether one
escapes the next character. -/
def closesEscaped : Bool → List Char → Bool
  | _, [] => false
  | true, _ :: cs => closesEscaped false cs
  | false, c :: cs => if c = '"' then cs.isEmpty else closesEscaped (c = '\\') cs

/-- The last character, and none before, is a quote that is not one of two that stand for one. -/
def closesVerbatim : List Char → Bool
  | [] => false
  | '"' :: '"' :: cs => closesVerbatim cs
  | '"' :: cs => cs.isEmpty
  | _ :: cs => closesVerbatim cs

/-- A literal is closed by its last character, and by none before. -/
def isClosed (literal : String) : Bool :=
  match literal.toList with
  | '@' :: '"' :: cs => closesVerbatim cs
  | '"' :: cs => closesEscaped false cs
  | _ => false

/-- Backslashes in a text escape neither a quote nor the end; the first argument tells whether one escapes the next
character. -/
def settled : Bool → List Char → Bool
  | escaped, [] => !escaped
  | escaped, c :: cs => !(escaped && c = '"') && settled (!escaped && c = '\\') cs

theorem closesEscaped_escape (b : Bool) (cs : List Char) :
    closesEscaped b (escape '"' cs ++ ['"']) = settled b cs := by
  induction cs generalizing b with
  | nil => cases b <;> rfl
  | cons c cs ih =>
    unfold escape at ih ⊢
    by_cases hc : c = '"' <;> cases b <;> simp [hc, closesEscaped, settled, ih]

/-- A backslash before a line end escapes nothing else. -/
theorem settled_escape (b : Bool) (cs : List Char) : settled b (escape '\n' cs) = settled b cs := by
  induction cs generalizing b with
  | nil => rfl
  | cons c cs ih =>
    unfold escape at ih ⊢
    by_cases hc : c = '\n' <;> cases b <;> simp [hc, settled, ih]

/-- What closes a verbatim literal follows a text with each quote doubled. -/
theorem doubled_of_closesVerbatim : ∀ {cs : List Char}, closesVerbatim (cs ++ ['"']) = true →
    ∃ w : List Char, cs = w.flatMap fun c => if c = '"' then ['"', '"'] else [c]
  | [], _ => ⟨[], rfl⟩
  | c :: cs, h => by
    by_cases hc : c = '"'
    · subst hc
      match cs, h with
      | d :: cs, h =>
        by_cases hd : d = '"'
        · subst hd
          obtain ⟨w, rfl⟩ := @doubled_of_closesVerbatim cs h
          exact ⟨'"' :: w, rfl⟩
        · simp [closesVerbatim, hd] at h
    · obtain ⟨w, rfl⟩ := @doubled_of_closesVerbatim cs (by simpa [closesVerbatim, hc] using h)
      exact ⟨c :: w, by simp [hc]⟩

theorem closesVerbatim_doubled (w : List Char) :
    closesVerbatim ((w.flatMap fun c => if c = '"' then ['"', '"'] else [c]) ++ ['"']) = true := by
  induction w with
  | nil => rfl
  | cons c w ih => by_cases hc : c = '"' <;> simpa [hc, closesVerbatim] using ih

/-- **When a written string is one closed literal.** A text of several lines in C# exactly if each quote in it is
doubled, any other text, and all texts in C++, exactly if it leaves neither a quote nor its end escaped. -/
theorem literal_closed_iff (v : String) :
    (isClosed (CSharp.stringLiteral v) = true ↔
      if '\n' ∈ v.toList then ∃ w, v = Text.replaceAll w "\"" "\"\"" else settled false v.toList = true) ∧
    (isClosed (CPlusPlus.stringLiteral v) = true ↔ settled false v.toList = true) := by
  unfold isClosed
  rw [CSharp.toList_stringLiteral, CPlusPlus.toList_stringLiteral]
  refine ⟨?_, by rw [← settled_escape, ← closesEscaped_escape]; rfl⟩
  by_cases h : '\n' ∈ v.toList
  · have doubled (w : String) : (Text.replaceAll w "\"" "\"\"").toList =
        w.toList.flatMap fun c => if c = '"' then ['"', '"'] else [c] := toList_replaceAll_one rfl
    rw [if_pos h, if_pos h]
    refine ⟨fun h => ?_, ?_⟩
    · obtain ⟨w, hw⟩ := doubled_of_closesVerbatim h
      exact ⟨String.ofList w, String.toList_injective (by rw [hw, doubled, String.toList_ofList])⟩
    · rintro ⟨w, rfl⟩
      rw [doubled]
      exact closesVerbatim_doubled w.toList
  · rw [if_neg h, if_neg h, ← closesEscaped_escape]
    rfl

/-- A quote in a text of several lines closes the literal that C# gets for it. -/
theorem quote_closes_verbatim :
    ∃ t ∈ Scan.tokens "var x = \"\"\"say \"hi\"\nnow\"\"\"", t.kind = .longString ∧
      CSharp.stringLiteral t.value = "@\"say \"hi\"\nnow\"" ∧ isClosed (CSharp.stringLiteral t.value) = false := by
  decide +kernel

end GdScribe
