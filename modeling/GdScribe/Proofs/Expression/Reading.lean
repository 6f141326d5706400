import GdScribe.Proofs.Reader.Arguments
import GdScribe.Proofs.Target.Prints
import GdScribe.Proofs.Token.Lexing

/-!
# Reading phrases

A reader that stands before the words of a phrase reads exactly these words, and what it has read
is written as the reference printing says.

* `CSharp.Reads`: a rule reads a phrase.

Principal results: `CSharp.callArguments_reads` and `CSharp.items_written`, for rules that read the phrases
inside brackets.
-/

namespace GdScribe

open List

namespace Phrase

theorem IsName.plain {n : String} (h : IsName n) : Plain n := by
  intro c hc
  refine ⟨Scan.small_of_isNamePart (h.letters c hc), ?_⟩
  rintro rfl
  exact absurd (h.letters _ hc) nofun

end Phrase

namespace CSharp

open Target Read Phrase

/-- How names and the heads of calls are spelled. -/
def spelled (s : Settings) (classes : List String) (t : ClassTable) : Spelled where
  name n := match roleIn classes t n with
    | .singleton => typeName s t (some n)
    | .property => pascal n
    | .variable => variableName s n
  head n :=
    if t.contains n then "new " ++ callName (some n) n
    else callName (if t.globals.methods.contains n then some ClassTable.globalScope else none) n

theorem spelled_name_plain (s : Settings) (classes : List String) (t : ClassTable) {n : String}
    (h : IsName n) : Plain ((spelled s classes t).name n) := by
  unfold spelled
  dsimp only
  cases roleIn classes t n with
  | singleton => exact plain_typeName s t h.plain
  | property => exact plain_pascal h.plain
  | _ => exact plain_variableName s h.plain

theorem spelled_head_plain (s : Settings) (classes : List String) (t : ClassTable) {n : String}
    (h : IsName n) : Plain ((spelled s classes t).head n) := by
  unfold spelled
  dsimp only
  split
  · exact Over.append (by decide) (plain_callName _ h.plain)
  · exact plain_callName _ h.plain

/-- A rule reads a phrase: before its words and a word that ends it, the rule passes the words and
gives an expression that is written as the reference printing says. -/
def Reads (s : Settings) (x : ReadM (Pages State) Typed) (Ends : Word → Prop) {k : Rank} (p : Phrase k) : Prop :=
  ∀ a w ws, a.words = p.words ++ w :: ws → Ends w → (a.inParens = true → Leads.isLine w.1 = false) →
    Leads x a { a with words := w :: ws } fun r =>
      Prints a.table ((dialect s).expr r.2) (p.print (spelled s a.classes a.table))

/-- Rules that read all phrases with fewer than `m` words. -/
structure RulesRead (s : Settings) (r : Rules (Pages State)) (m : Nat) : Prop where
  expression : ∀ e : Phrase .choice, e.Proper → e.words.length < m → Reads s r.expression EndsExpression e
  ternary : ∀ e : Phrase .choice, e.Proper → e.words.length < m → Reads s r.ternary EndsChoice e
  boolean : ∀ e : Phrase .comparison, e.Proper → e.words.length < m → Reads s r.boolean EndsComparison e
  sum : ∀ e : Phrase .sum, e.Proper → e.words.length < m → Reads s r.sum EndsSum e
  follow : 0 < m → ∀ t a w ws, a.words = w :: ws → EndsValue w → Leads (r.follow t) a a fun x => x.2 = .nothing

section moves

variable {s : Settings} {r : Rules (Pages State)} {m : Nat} {a : View (Pages State)}
variable {k : TokenKind} {v n : String} {w : Word} {ws : List Word} {Q : Typed → Prop}

theorem quiet (s : Settings) (t : ClassTable) (p : Pages State) :
    Serves ((writer s).serve (.put "")) t p t p := by
  have h := put_prints (t := t) (show NoBreak "" by decide) p
  rw [String.append_empty] at h
  exact h

theorem quietAt (s : Settings) (a : View (Pages State)) : QuietAt (writer s) a := fun _ => quiet s _ _

theorem name_prints (hn : IsName n) (t : ClassTable) (classes : List String) :
    Prints t ((dialect s).expr (.name (roleIn classes t n) n)) ((spelled s classes t).name n) := by
  have plain := (spelled_name_plain s classes t hn).noBreak
  unfold spelled at plain ⊢
  dsimp only at plain ⊢
  cases hr : roleIn classes t n with
  | singleton =>
    rw [hr] at plain
    intro p
    refine Serves.bind (Q := (· = typeName s t (some n))) (.look fun d hd _ => by rw [hd]) ?_
    rintro _ rfl
    exact put_prints plain p
  | _ => rw [hr] at plain; exact put_prints plain

/-! ## Lists of items -/

variable {c : Word} {t : ClassTable}

theorem words_eq_commaWords : ∀ l : Phrase .list, l.words = commaWords (l.items.map words)
  | .noItem => by simp [words, items, commaWords]
  | .item e .noItem => by simp [words, items, isLast, commaWords]
  | .item e (.item e' l) => by
    have rest := words_eq_commaWords (.item e' l)
    rw [words, rest]
    simp [items, isLast, commaWords]

theorem texts_eq_print (sp : Spelled) : ∀ l : Phrase .list, l.texts sp = l.items.map (print sp)
  | .noItem => by rw [texts, items, map_nil]
  | .item e l => by rw [texts, items, map_cons, texts_eq_print sp l, Phrase.print]

theorem of_mem_items : ∀ {l : Phrase .list}, l.Proper → ∀ e ∈ l.items, e.Proper ∧ e.words.length ≤ l.words.length
  | .noItem, _, e', h => by simp [items] at h
  | .item e l, hp, e', h => by
    rw [items, mem_cons] at h
    rw [words, length_append, length_append]
    rcases h with rfl | h
    · exact ⟨hp.1, by omega⟩
    · obtain ⟨h1, h2⟩ := of_mem_items hp.2 e' h
      exact ⟨h1, by omega⟩

/-- Arguments that are read and written one by one. -/
theorem callArguments_prints {ι : Type} {items : List ι} {itemWords : ι → List Word} {text : ι → String}
    (item : ∀ i ∈ items, ItemReads r a (itemWords i) fun x => Prints a.table ((dialect s).expr x) (text i))
    (h : a.words = commaWords (items.map itemWords) ++ mark ')' :: w :: ws) :
    Leads (callArguments (writer s) r) a { a with words := w :: ws } fun es =>
      Forall₂ (fun e => Prints a.table ((dialect s).expr e)) es (items.map text) := by
  have reads := callArguments_of_items w ws items item (quiet s a.table a.pages)
  rw [← h] at reads
  refine reads.mono fun es hes => ?_
  rw [forall₂_map_right_iff]
  exact hes.flip

theorem callArguments_reads (R : RulesRead s r m) (l : Phrase .list) (hp : l.Proper)
    (hm : l.words.length < m) (h : a.words = l.words ++ mark ')' :: w :: ws) :
    Leads (callArguments (writer s) r) a { a with words := w :: ws } fun es =>
      Forall₂ (fun e => Prints a.table ((dialect s).expr e)) es (l.texts (spelled s a.classes a.table)) := by
  rw [texts_eq_print]
  refine callArguments_prints (fun e he => ?_) (by rw [h, words_eq_commaWords])
  obtain ⟨hproper, hlen⟩ := of_mem_items hp e he
  refine ⟨e.first_word rfl hproper, fun w ws hw hline => ?_⟩
  exact R.expression e hproper (by omega) { a with words := e.words ++ w :: ws } w ws rfl hw fun _ => hline

/-! ## Items that are written as they are read -/

/-- The view after a list has been read and its text written. -/
abbrev written (a : View (Pages State)) (ws : List Word) (text : String) : View (Pages State) :=
  { a with words := ws, pages := { a.pages with page := a.pages.page ++ text } }

theorem dictionaryItem_prints {key value : Expr} {x y : String}
    (hk : Prints t ((dialect s).expr key) x) (hv : Prints t ((dialect s).expr value) y) :
    Prints t ((dialect s).dictionaryItem key value) ("\x7b" ++ x ++ ", " ++ y ++ "\x7d,") := by
  have h : Prints t ((dialect s).dictionaryItem key value) ("\x7b" ++ (x ++ (", " ++ (y ++ "\x7d,")))) :=
    (put_prints (by decide)).bind <| hk.bind <| (put_prints (by decide)).bind <| hv.bind (put_prints nofun)
  simpa only [String.append_assoc] using h

/-- The view before some words, with a page that has this text. -/
abbrev paged (a : View (Pages State)) (page : String) (ws : List Word) : View (Pages State) :=
  { a with words := ws, pages := { a.pages with page } }

/-- Items in brackets that are written one after the other. -/
theorem items_written {ι : Type} {itemWords : ι → List Word} {text : ι → String}
    {body : Unit → ReadM (Pages State) (ForInStep Unit)} (hc : Closes c) (items : List ι)
    (starts : ∀ i ∈ items, ∃ w ws, itemWords i = w :: ws ∧ Starts w)
    (step : ∀ i ∈ items, ∀ p u us rest, EndsExpression u → Leads.isLine u.1 = false →
      (∀ y : ForInStep Unit, Leads (do let _ ← expect ","; endLine (writer s); return y)
        (paged a (p ++ text i) (u :: us))
        (paged a (p ++ text i) rest) (· = y)) →
      Leads (body ()) (paged a p (itemWords i ++ u :: us)) (paged a (p ++ text i) rest) (· = .yield ()))
    (h : a.words = commaWords (items.map itemWords) ++ c :: w :: ws) :
    Leads (do endLine (writer s); whileMoving (do return !(← expect c.2)) body ()) a
      (written a (w :: ws) (.join (items.map text))) := by
  obtain ⟨u, us, first, hline⟩ := items_start hc items starts (w :: ws)
  have joined (p : String) : items.foldl (fun p i => p ++ text i) p = p ++ .join (items.map text) := by
    rw [← foldl_map]
    induction items.map text generalizing p with
    | nil => exact String.append_empty.symm
    | cons x xs ih => rw [foldl_cons, ih, String.join_cons, String.append_assoc]
  have rounds := items_rounds hc items starts (fun p => paged a p []) (fun p i => p ++ text i)
    (fun _ _ => True) body w ws
    (fun _ => quiet s _ _)
    (fun i hi p _ u us rest _ hu hline pass => (step i hi p u us rest hu hline pass).mono fun _ hx => ⟨(), hx, trivial⟩)
    a.pages.page () trivial
  rw [joined] at rounds
  refine (Leads.endLine_here (h.trans first) hline (quiet s _ _)).bind fun _ _ => ?_
  have here : a = { paged a a.pages.page [] with words := commaWords (items.map itemWords) ++ c :: w :: ws } := by
    rw [← h]
  rw [here]
  exact rounds.whileMoving

theorem pairs_words : ∀ l : Phrase .pairs,
    l.words = commaWords (l.pairs.map fun p => p.1.words ++ mark ':' :: p.2.words)
  | .noPair => by simp [words, pairs, commaWords]
  | .pair k v .noPair => by simp [words, pairs, isLast, commaWords]
  | .pair k v (.pair k' v' l) => by
    have rest := pairs_words (.pair k' v' l)
    rw [words, rest]
    simp [pairs, isLast, commaWords]

theorem of_mem_pairs : ∀ {l : Phrase .pairs}, l.Proper → ∀ p ∈ l.pairs,
    (p.1.Proper ∧ p.1.words.length ≤ l.words.length) ∧
    p.2.Proper ∧ p.2.words.length ≤ l.words.length
  | .noPair, _, p, h => by simp [pairs] at h
  | .pair k v l, hp, p, h => by
    rw [pairs, mem_cons] at h
    simp only [words, length_append, length_cons]
    rcases h with rfl | h
    · exact ⟨⟨hp.1, by dsimp only; omega⟩, hp.2.1, by dsimp only; omega⟩
    · obtain ⟨⟨h1, h2⟩, h3, h4⟩ := of_mem_pairs hp.2.2 p h
      exact ⟨⟨h1, by omega⟩, h3, by omega⟩

theorem pairs_texts (sp : Spelled) : ∀ l : Phrase .pairs,
    l.texts sp = l.pairs.map fun p => "\x7b" ++ p.1.print sp ++ ", " ++ p.2.print sp ++ "\x7d,"
  | .noPair => by rw [texts, pairs, map_nil]
  | .pair k v l => by rw [texts, pairs, map_cons, pairs_texts sp l, Phrase.print, Phrase.print]

end moves

end CSharp

end GdScribe
