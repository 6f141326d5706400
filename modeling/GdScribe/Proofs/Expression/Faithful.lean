import GdScribe.Proofs.Expression.Reading

/-!
# Expressions are written faithfully

The rules of expressions read every phrase of the grammar, at each of its ranks, and C# is written
for it as the reference printing says.

Main statement: `CSharp.expression_faithful`.
-/

namespace GdScribe.CSharp

open Target Read Phrase List

section printing

variable {s : Settings} {t : ClassTable}

variable {op : String}

theorem operatorPrint_noBreak (h : IsOperator op) : NoBreak (texts.operatorPrint op) := by
  unfold texts.operatorPrint
  split
  · decide
  · split
    · decide
    · split
      · decide
      · exact ((show NoBreak " " by decide).append h.oneLine).append nofun

theorem texts_noBreak {sp : Spelled} (hn : ∀ n, IsName n → NoBreak (sp.name n))
    (hh : ∀ n, IsName n → NoBreak (sp.head n)) :
    ∀ {k : Rank} (p : Phrase k), p.Proper → ∀ x ∈ p.texts sp, NoBreak x
  | _, .number .., h => forall_mem_singleton.mpr h.2
  | _, .truth value, _ => forall_mem_singleton.mpr (by cases value <;> decide)
  | _, .name n, h => forall_mem_singleton.mpr (hn n h)
  | _, .call n args, h => forall_mem_singleton.mpr <|
    (((hh n h.1).append (by decide)).append (.intercalate (texts_noBreak hn hh args h.2))).append nofun
  | _, .index n key, h => forall_mem_singleton.mpr <|
    (((hn n h.1).append (by decide)).append (.join (texts_noBreak hn hh key h.2))).append nofun
  | _, .group e, h => forall_mem_singleton.mpr <|
    (NoBreak.append (by decide) (.join (texts_noBreak hn hh e h))).append nofun
  | _, .array items, h => forall_mem_singleton.mpr <| (NoBreak.append (by decide) (.join fun y hy => by
      obtain ⟨x, hx, rfl⟩ := mem_map.mp hy
      exact (texts_noBreak hn hh items h x hx).append (by decide))).append nofun
  | _, .dictionary entries, h => forall_mem_singleton.mpr <|
    (NoBreak.append (by decide) (.join (texts_noBreak hn hh entries h))).append (by decide)
  | _, .single v, h => texts_noBreak hn hh v h
  | _, .operate v op rest, h => forall_mem_singleton.mpr <|
    ((NoBreak.join (texts_noBreak hn hh v h.1)).append (operatorPrint_noBreak h.2.1)).append
      (.join (texts_noBreak hn hh rest h.2.2))
  | _, .unsigned a, h => texts_noBreak hn hh a h
  | _, .signed op a, h => forall_mem_singleton.mpr <|
    (operatorPrint_noBreak h.1).append (.join (texts_noBreak hn hh a h.2))
  | _, .uncompared a, h => texts_noBreak hn hh a h
  | _, .compare a op b, h => forall_mem_singleton.mpr <|
    ((NoBreak.join (texts_noBreak hn hh a h.1)).append (operatorPrint_noBreak h.2.1)).append
      (.join (texts_noBreak hn hh b h.2.2))
  | _, .unconditional a, h => texts_noBreak hn hh a h
  | _, .conditional a c b, h => forall_mem_singleton.mpr <|
    (((((NoBreak.append (by decide) (.join (texts_noBreak hn hh c h.2.1))).append (by decide)).append
      (.join (texts_noBreak hn hh a h.1))).append (by decide)).append
      (.join (texts_noBreak hn hh b h.2.2))).append (by decide)
  | _, .noItem, _ => fun _ hx => by cases hx
  | _, .item e rest, h => forall_mem_cons.mpr ⟨.join (texts_noBreak hn hh e h.1), texts_noBreak hn hh rest h.2⟩
  | _, .noPair, _ => fun _ hx => by cases hx
  | _, .pair k v rest, h => forall_mem_cons.mpr
    ⟨((((NoBreak.append (by decide) (.join (texts_noBreak hn hh k h.1))).append (by decide)).append
      (.join (texts_noBreak hn hh v h.2.1))).append (by decide)), texts_noBreak hn hh rest h.2.2⟩

theorem texts_oneLine (s : Settings) (classes : List String) (t : ClassTable) {k : Rank}
    (p : Phrase k) (h : p.Proper) : ∀ x ∈ p.texts (spelled s classes t), NoBreak x :=
  texts_noBreak (fun _ hn => (spelled_name_plain s classes t hn).noBreak)
    (fun _ hn => (spelled_head_plain s classes t hn).noBreak) p h

theorem operator_prints (h : IsOperator op) : Prints t ((dialect s).operator op) (texts.operatorPrint op) := by
  have text : (if Dialect.operatorText op = "!" then Dialect.operatorText op
      else " " ++ Dialect.operatorText op ++ " ") = texts.operatorPrint op := by
    unfold Dialect.operatorText texts.operatorPrint
    split
    · rfl
    · rfl
    · rfl
    · rename_i h1 h2 h3
      rw [if_neg h1, if_neg h2]
      by_cases he : op = "!"
      · rw [if_pos he, if_pos (.inr he), he]
      · rw [if_neg he, if_neg (not_or.mpr ⟨h3, he⟩)]
  have put := put_prints (t := t) (operatorPrint_noBreak h)
  rw [← text] at put ⊢
  exact put

end printing

section reading

variable {s : Settings} {r : Rules (Pages State)} {m : Nat} {a : View (Pages State)}
variable {n : String} {w : Word} {ws : List Word}

/-! ## Calls -/

variable {t : ClassTable} {text x y op : String} {e e' : Expr}

theorem seq_nothing_prints
    (h : Prints t ((dialect s).expr e) x) : Prints t ((dialect s).expr (.seq e .nothing)) x := by
  have seq := h.bind Prints.nothing
  rw [String.append_empty] at seq
  rw [Dialect.expr]
  exact seq

/-- A call is written as its head is spelled, with its arguments in parentheses. -/
theorem call_prints (hn : IsName n) {args : List Expr} {xs : List String}
    (classes : List String) (h : Forall₂ (fun e => Prints t ((dialect s).expr e)) args xs) :
    Prints t ((dialect s).expr (.seq (callTree t n args) .nothing))
      ((spelled s classes t).head n ++ "(" ++ String.intercalate ", " xs ++ ")") := by
  refine seq_nothing_prints ?_
  have named (caller : Ty) : Prints t (do
      put (callName caller n ++ "(")
      (dialect s).arguments args
      put ")") (callName caller n ++ "(" ++ (String.intercalate ", " xs ++ ")")) := by
    have head : NoBreak (callName caller n ++ "(") := (plain_callName caller hn.plain).noBreak.append nofun
    exact (put_prints head).bind ((arguments_prints (put_prints (by decide)) h).bind (put_prints nofun))
  unfold callTree spelled
  dsimp only
  by_cases hc : t.contains n = true
  · rw [if_pos hc, if_pos hc]
    have made := (put_prints (show NoBreak "new " by decide)).bind (named (some n))
    simp only [← String.append_assoc] at made
    exact made
  · rw [if_neg hc, if_neg hc, String.append_assoc]
    exact named _

/-! ## Brackets -/

theorem takePage_serves (t : ClassTable) (p : Pages State) :
    Serves (writer s).takePage t p t { p with page := p.below.headD "", below := p.below.drop 1 }
      (· = p.page) := by
  rintro d rfl rfl
  exact ⟨d.pages.page, _, rfl, rfl, rfl, rfl, rfl⟩

/-- What stands in brackets is written on a page of its own, which is gone in the end. -/
theorem bracketed_reads {act : ReadM (Pages State) Unit}
    (h : ∀ p : Pages State, Leads act { a with pages := p } (written { a with pages := p } ws text)) :
    Leads (bracketed (writer s) act) a { a with words := ws } (· = text) := by
  let inner : Pages State :=
    { a.pages with level := a.pages.level + 1, page := "", below := a.pages.page :: a.pages.below }
  have deeper : Leads (ask (writer s) .indent) a
      { a with pages := { a.pages with level := a.pages.level + 1 } } :=
    Leads.ask (Serves.modify_pages (f := fun p : Pages State => { p with level := p.level + 1 }))
  have opened : Leads (ask (writer s) .openPage)
      { a with pages := { a.pages with level := a.pages.level + 1 } } { a with pages := inner } :=
    Leads.ask (Serves.modify_pages
      (f := fun p : Pages State => { p with page := "", below := p.page :: p.below }))
  have taken : Leads (takePage (writer s)) (written { a with pages := inner } ws text)
      { a with words := ws, pages := { a.pages with level := a.pages.level + 1 } } (· = text) := by
    exact Leads.takePage (takePage_serves _ _)
  have back : Leads (ask (writer s) .dedent)
      { a with words := ws, pages := { a.pages with level := a.pages.level + 1 } }
      { a with words := ws } := by
    have up := Leads.ask (w := writer s) (q := .dedent)
      (a := { a with words := ws, pages := { a.pages with level := a.pages.level + 1 } })
      (Serves.modify_pages (f := fun p : Pages State => { p with level := p.level + -1 }))
    simp only [Int.add_neg_cancel_right] at up
    exact up
  refine deeper.bind fun _ _ => ?_
  have page : Leads (onPage (writer s) act) { a with pages := { a.pages with level := a.pages.level + 1 } }
      { a with words := ws, pages := { a.pages with level := a.pages.level + 1 } } (· = ((), text)) :=
    opened.bind fun _ _ => (h inner).bind fun _ _ => taken.bindEq (.pure rfl)
  exact page.bindEq (back.bind fun _ _ => .pure rfl)

/-! ## What is written -/

/-- A value that is written as it should be stays so if nothing follows it. -/
theorem dereference_prints (h : Leads (value (writer s) r) a { a with words := w :: ws }
      fun x => Prints t ((dialect s).expr x.2) text) (hw : EndsValue w) :
    Leads (dereference (writer s) r) a { a with words := w :: ws } fun x => Prints t ((dialect s).expr x.2) text :=
  (dereference_of_value h rfl hw).mono fun _ ⟨_, hy, hx⟩ => hx ▸ hy

theorem array_prints {items : String} (h : NoBreak items) :
    Prints t ((dialect s).expr (.array items)) ("new Array\x7b" ++ items ++ "\x7d") := by
  rw [String.append_assoc]
  exact (put_prints (by decide)).bind ((put_prints h).bind (put_prints nofun))

theorem dictionary_prints {entries : String} (h : NoBreak entries) :
    Prints t ((dialect s).expr (.dictionary entries)) ("new Dictionary\x7b" ++ entries ++ "\x7d") := by
  rw [String.append_assoc]
  exact (put_prints (by decide)).bind ((put_prints h).bind (put_prints nofun))

theorem group_prints (h : Prints t ((dialect s).expr e) x) :
    Prints t ((dialect s).expr (.group e)) ("(" ++ x ++ ")") := by
  exact (put_prints (by decide)).bind (h.bind (put_prints (by decide)))

theorem index_prints {name key : Expr}
    (hx : Prints t ((dialect s).expr name) x) (hy : Prints t ((dialect s).expr key) y) :
    Prints t ((dialect s).expr (.seq name (.seq (.index key) .nothing))) (x ++ "[" ++ y ++ "]") := by
  have index : Prints t ((dialect s).expr (.index key)) ("[" ++ (y ++ "]")) := by
    exact (put_prints (by decide)).bind (hy.bind (put_prints nofun))
  rw [String.append_assoc, String.append_assoc]
  exact hx.bind (seq_nothing_prints index)

theorem literal_prints (t : ClassTable) (text : String) : Prints t ((dialect s).expr (.literal text)) text := by
  exact .write text

theorem binary_prints (ho : IsOperator op)
    (hx : Prints t ((dialect s).expr e) x) (hy : Prints t ((dialect s).expr e') y) :
    Prints t ((dialect s).expr (.binary e op e')) (x ++ texts.operatorPrint op ++ y) := by
  rw [String.append_assoc]
  exact hx.bind ((operator_prints ho).bind hy)

theorem endsValue_of_isOperator (h : IsOperator op) (k : TokenKind) : EndsValue (k, op) := by
  intro hv
  simp only [mem_cons, not_mem_nil, or_false] at hv
  refine h.free ?_
  rcases hv with rfl | rfl | rfl <;> decide

theorem choice_prints {c : Expr} {z : String}
    (hc : Prints t ((dialect s).expr c) x) (he : Prints t ((dialect s).expr e) y)
    (he' : Prints t ((dialect s).expr e') z) :
    Prints t ((dialect s).expr (.choice c e e')) ("( " ++ x ++ " ? " ++ y ++ " : " ++ z ++ " )") := by
  simp only [String.append_assoc]
  exact (put_prints (by decide)).bind <| hc.bind <| (put_prints (by decide)).bind <| he.bind <|
    (put_prints (by decide)).bind <| he'.bind (put_prints nofun)

/-! ## Values -/

variable (R : RulesRead s r m)

include R

theorem arrayItems_reads (l : Phrase .list) (hp : l.Proper)
    (hm : l.words.length < m) (h : a.words = l.words ++ mark ']' :: w :: ws) :
    Leads (arrayItems (writer s) r) a
      (written a (w :: ws) (.join ((l.texts (spelled s a.classes a.table)).map (· ++ ", ")))) := by
  rw [texts_eq_print, map_map]
  refine items_written (c := mark ']') ⟨by decide, rfl, by decide⟩ l.items
    (fun e he => e.first_word rfl (of_mem_items hp e he).1)
    (fun e he p u us rest hu hline pass => ?_) (by rw [h, words_eq_commaWords])
  obtain ⟨hproper, hlen⟩ := of_mem_items hp e he
  exact (R.expression e hproper (by omega) _ u us rfl hu fun _ => hline).bind fun x hx =>
    (Leads.ask (hx.bind (put_prints (by decide)) _)).bind fun _ _ => pass _

theorem dictionaryEntries_reads (l : Phrase .pairs) (hp : l.Proper)
    (hm : l.words.length < m) (h : a.words = l.words ++ mark '\x7d' :: w :: ws) :
    Leads (dictionaryEntries (writer s) r) a
      (written a (w :: ws) (.join (l.texts (spelled s a.classes a.table)))) := by
  rw [pairs_texts]
  refine items_written (c := mark '\x7d') ⟨by decide, rfl, by decide⟩ l.pairs (fun p hp' => ?_)
    (fun p hp' page u us rest hu hline pass => ?_) (by rw [h, pairs_words])
  · obtain ⟨w, ws, first, start⟩ := p.1.first_word rfl (of_mem_pairs hp p hp').1.1
    exact ⟨w, _, by rw [first]; rfl, start⟩
  · obtain ⟨⟨hkey, hlen⟩, hvalue, hlen'⟩ := of_mem_pairs hp p hp'
    refine (R.expression p.1 hkey (by omega) _ (mark ':') (p.2.words ++ u :: us) (by simp) (by decide)
      fun _ => rfl).bind fun x hx => ?_
    refine (Leads.expect_before rfl).bind fun _ _ => ?_
    refine (R.expression p.2 hvalue (by omega) _ u us rfl hu fun _ => hline).bind fun y hy => ?_
    exact (Leads.ask (dictionaryItem_prints hx hy _)).bind fun _ _ => pass _

theorem subscription_reads (t : Ty) (e : Phrase .choice) (hp : e.Proper)
    (hm : e.words.length < m) (h : a.words = e.words ++ mark ']' :: w :: ws) (hw : EndsValue w) :
    Leads (subscription r t) a { a with words := w :: ws } fun x =>
      ∃ key, x.2 = .seq (.index key) .nothing ∧
        Prints a.table ((dialect s).expr key) (e.print (spelled s a.classes a.table)) := by
  refine (subscription_of_key (R.expression e hp hm a _ _ h (by decide) fun _ => rfl)
    (R.follow (by omega) _ _ w ws rfl hw)).mono ?_
  rintro _ ⟨key, rest, hkey, hrest, rfl⟩
  exact ⟨key.2, by rw [hrest], hkey⟩

theorem grouped_reads (e : Phrase .choice) (hp : e.Proper)
    (hm : e.words.length < m) (h : a.words = e.words ++ mark ')' :: w :: ws) :
    Leads (grouped (writer s) r) a { a with words := w :: ws } fun x =>
      ∃ y, x.2 = .group y ∧ Prints a.table ((dialect s).expr y) (e.print (spelled s a.classes a.table)) := by
  obtain ⟨⟨k, v⟩, ws', hw', hs⟩ := e.first_word rfl hp
  have inner := R.expression e hp hm { a with inParens := true } _ _ h (by decide) fun _ => rfl
  refine (grouped_of_expression (h.trans (by rw [hw']; rfl)) hs.notLine (quiet s _ _) inner).mono ?_
  rintro _ ⟨y, hy, rfl⟩
  exact ⟨y.2, rfl, hy⟩

theorem dereference_reads (p : Phrase .value) (hp : p.Proper)
    (hm : p.words.length ≤ m) : Reads s (dereference (writer s) r) EndsValue p := by
  intro a w ws h hw hline
  have shape (l : List Word) (c w : Word) (ws : List Word) : l ++ [c] ++ w :: ws = l ++ c :: w :: ws := by simp
  cases p with
  | number hex text =>
    refine dereference_prints ((value_number (quietAt s _) h (by cases hex <;> simp)).mono fun x hx => ?_) hw
    rw [hx]
    exact literal_prints _ _
  | truth value =>
    refine dereference_prints ((value_truth (quietAt s _) h (by cases value <;> simp)).mono fun x hx => ?_) hw
    rw [hx]
    exact literal_prints _ _
  | name n =>
    have hcall : w.2 ≠ "(" := fun he => hw (by simp [he])
    refine dereference_prints ((value_name (quietAt s _) h hp hcall).mono fun x hx => ?_) hw
    rw [hx.1]
    exact name_prints hp _ _
  | call n args =>
    rw [words, length_append, length_cons, length_cons] at hm
    rw [words, shape] at h
    refine dereference_prints (value_text (quietAt s _) h hp.1 ?_) hw
    refine .hit_before rfl ?_
    refine (call_of_arguments hp.1.nonempty (callArguments_reads R args hp.2 (by omega) rfl)
      fun t => R.follow (by omega) t _ w ws rfl hw).mono ?_
    rintro x ⟨es, hx, hes⟩
    rw [hx]
    exact call_prints hp.1 _ hes
  | index n key =>
    rw [words, length_append, length_cons, length_cons] at hm
    rw [words, shape] at h
    refine (value_name (quietAt s _) h hp.1 (by decide)).bind fun x hx => ?_
    refine .miss rfl (by decide) ?_
    refine .hit_before rfl ?_
    refine (subscription_reads R _ key hp.2 (by omega) rfl hw).bind ?_
    rintro y ⟨e, hy, he⟩
    refine .pure ?_
    rw [hx.1, hy]
    exact index_prints (name_prints hp.1 _ _) he
  | group e =>
    rw [words, length_append, length_cons] at hm
    rw [words, shape] at h
    refine dereference_prints (value_marked (quietAt s _) h (by decide) (by decide) ?_) hw
    refine .miss h (by decide) ?_
    refine .miss h (by decide) ?_
    refine .hit_before h ?_
    refine (grouped_reads R e hp (by omega) rfl).mono ?_
    rintro x ⟨y, hx, hy⟩
    rw [hx]
    exact group_prints hy
  | array items =>
    rw [words, length_append, length_cons] at hm
    rw [words, shape] at h
    refine dereference_prints (value_marked (quietAt s _) h (by decide) (by decide) ?_) hw
    refine .hit_before h ?_
    refine (bracketed_reads fun p => arrayItems_reads R items hp (by omega) rfl).bindEq
      (.pure (array_prints (.join fun y hy => ?_)))
    obtain ⟨x, hx, rfl⟩ := mem_map.mp hy
    exact (texts_oneLine _ _ _ items hp x hx).append (by decide)
  | dictionary entries =>
    rw [words, length_append, length_cons] at hm
    rw [words, shape] at h
    refine dereference_prints (value_marked (quietAt s _) h (by decide) (by decide) ?_) hw
    refine .miss h (by decide) ?_
    refine .hit_before h ?_
    exact (bracketed_reads fun p => dictionaryEntries_reads R entries hp (by omega) rfl).bindEq
      (.pure (dictionary_prints (.join (texts_oneLine _ _ _ entries hp))))

/-! ## Operators -/

theorem sum_reads (p : Phrase .sum) (hp : p.Proper) (hm : p.words.length ≤ m) :
    Reads s (sum (writer s) r) EndsSum p := by
  intro a w ws h hw hline
  cases p with
  | single v =>
    exact sum_of_dereference (dereference_reads R v hp hm a w ws h hw.1 hline) rfl hw.2 hline (quietAt s _)
  | operate v op rest =>
    rw [words, length_append, length_cons] at hm
    rw [words, append_assoc] at h
    refine (dereference_reads R v hp.1 (by omega) a _ _ h (endsValue_of_isOperator hp.2.1 _) fun _ => rfl).bind
      fun x hx => ?_
    refine (Leads.endLineInParens_here rfl (fun _ => rfl) (quietAt s _)).bind fun _ _ => ?_
    refine (Leads.kindIs rfl _).bindEq (.ite_pos rfl ?_)
    refine (Leads.consume_before rfl).bindEq ?_
    refine (R.sum rest hp.2.2 (by omega) { a with words := rest.words ++ w :: ws } w ws rfl hw hline).bind
      fun y hy => .pure ?_
    exact binary_prints hp.2.1 hx hy

theorem arithmetic_reads (p : Phrase .signed) (hp : p.Proper)
    (hm : p.words.length ≤ m) : Reads s (arithmetic (writer s) r) EndsSum p := by
  intro a w ws h hw hline
  cases p with
  | unsigned e =>
    obtain ⟨k, v, ws', hk, hne⟩ := e.first_kind
    exact arithmetic_of_sum (h.trans (by rw [words, hk]; rfl)) hne (sum_reads R e hp hm a w ws h hw hline)
  | signed op e =>
    rw [words, length_cons] at hm
    refine (Leads.kindIs h _).bindEq (.ite_pos rfl ?_)
    refine (Leads.consume_before h).bindEq ?_
    refine (sum_reads R e hp.2 (by omega) { a with words := e.words ++ w :: ws } w ws rfl hw hline).bind
      fun x hx => .pure ?_
    exact (operator_prints hp.1).bind hx

theorem boolean_reads (p : Phrase .comparison) (hp : p.Proper)
    (hm : p.words.length ≤ m) : Reads s (boolean (writer s) r) EndsComparison p := by
  intro a w ws h hw hline
  cases p with
  | uncompared e => exact boolean_of_arithmetic (arithmetic_reads R e hp hm a w ws h hw.1 hline) rfl hw
  | compare e op rest =>
    rw [words, length_append, length_cons] at hm
    rw [words, append_assoc] at h
    refine (arithmetic_reads R e hp.1 (by omega) a _ _ h ⟨endsValue_of_isOperator hp.2.1 _, by rintro ⟨⟩⟩
      fun _ => rfl).bind fun x hx => ?_
    refine (Leads.kindIs rfl _).bindEq (.ite_pos rfl ?_)
    refine (Leads.consume_before rfl).bindEq ?_
    refine (R.boolean rest hp.2.2 (by omega) { a with words := rest.words ++ w :: ws } w ws rfl hw
      hline).bind fun y hy => .pure ?_
    exact binary_prints hp.2.1 hx hy

theorem ternary_reads (p : Phrase .choice) (hp : p.Proper)
    (hm : p.words.length ≤ m) : Reads s (ternary (writer s) r) EndsChoice p := by
  intro a w ws h hw hline
  cases p with
  | unconditional e =>
    refine (boolean_reads R e hp hm a w ws h hw.1 hline).bind fun x hx => ?_
    exact .miss rfl hw.2 (.pure hx)
  | conditional e c e' =>
    simp only [words, length_append, length_cons] at hm
    simp only [words, append_assoc] at h
    refine (boolean_reads R e hp.1 (by omega) a _ _ h (by decide) fun _ => rfl).bind fun x hx => ?_
    refine .hit_before rfl ?_
    refine (boolean_reads R c hp.2.1 (by omega) _ _ _ rfl (by decide) fun _ => rfl).bind fun y hy => ?_
    refine (Leads.expect_before rfl).bindEq ?_
    refine (R.ternary e' hp.2.2 (by omega) { a with words := e'.words ++ w :: ws } w ws rfl hw hline).bind
      fun z hz => .pure ?_
    exact choice_prints hy hx hz

theorem expression_reads (p : Phrase .choice) (hp : p.Proper)
    (hm : p.words.length ≤ m) : Reads s (expression (writer s) r) EndsExpression p := by
  intro a w ws h hw hline
  refine (ternary_reads R p hp hm a w ws h hw.1 hline).bind fun x hx => ?_
  exact .miss rfl hw.2 (.pure hx)

omit R

/-- **The rules read phrases.** Rules that may be nested as deep as a phrase is long read it: by
induction on the depth, since each use of a rule inside another comes after a word. -/
theorem rules_read (s : Settings) (n : Nat) : RulesRead s (rules (writer s) n) n := by
  induction n with
  | zero =>
    exact ⟨nofun, nofun, nofun, nofun, nofun⟩
  | succ n ih =>
    exact ⟨fun e he h => expression_reads ih e he (by omega), fun e he h => ternary_reads ih e he (by omega),
      fun e he h => boolean_reads ih e he (by omega), fun e he h => sum_reads ih e he (by omega),
      fun _ t a w ws h hw => follow_reads t h hw⟩

end reading

/-! ## The end of an expression -/

/-- **Expressions are written faithfully.** Before the words of a phrase and a word that can follow
it, outside parentheses, an expression is read without a fault. Exactly these words are passed, and
nothing else that the reader sees or knows is changed. To write what was read, at any later time with
the same classes, adds exactly the reference printing to the page. -/
theorem expression_faithful (s : Settings) (p : Phrase .choice) (hp : p.Proper) (n : Nat)
    (hn : p.words.length ≤ n) (st : Reader (Pages State)) (w : Word) (ws : List Word)
    (hst : st.view.words = p.words ++ w :: ws) (hw : Follows w) (hin : st.inParens = false) :
    ∃ t e st', expression (writer s) (rules (writer s) n) st = .ok (t, e) st' ∧
      st'.view = { st.view with words := w :: ws } ∧
      ∀ d, d.classes = st.desk.classes → ∃ d', (writer s).serve (.expr e) d = .ok () d' ∧
        d'.classes = d.classes ∧ d'.pages = { d.pages with
          page := d.pages.page ++ p.print (spelled s st.classes st.desk.classes) } := by
  have outside : st.view.inParens = true → Leads.isLine w.1 = false := fun h => by
    rw [show st.view.inParens = st.inParens from rfl, hin] at h
    cases h
  obtain ⟨⟨t, e⟩, st', hr, hprints, hview, -⟩ :=
    expression_reads (rules_read s n) p hp hn st.view w ws hst hw.endsExpression outside st rfl
  refine ⟨t, e, st', hr, hview, fun d hd => ?_⟩
  obtain ⟨_, d', hd', -, hclasses, hpages, -⟩ := hprints d.pages d hd rfl
  exact ⟨d', hd', hclasses.trans hd.symm, hpages⟩

/-- A value as an expression. -/
def ofValue (v : Phrase .value) : Phrase .choice := .unconditional (.uncompared (.unsigned (.single v)))

/-- A conditional choice between a call, with an array and a dictionary among its arguments, and a
name in parentheses. -/
def sampleChoice : Phrase .choice :=
  .conditional
    (.uncompared <| .unsigned <| .single <| .call "max" <| .item (ofValue (.number false "1")) <|
      .item (ofValue (.array (.item (ofValue (.name "x"))
        (.item (ofValue (.number true "0x2f")) .noItem)))) <|
      .item (ofValue (.dictionary (.pair (ofValue (.name "k")) (ofValue (.name "v")) .noPair))) .noItem)
    (.compare (.signed "not" (.single (.name "b"))) "and" <|
      .compare (.unsigned (.single (.index "c" (ofValue (.number false "0"))))) "==" <|
      .uncompared (.unsigned (.operate (.number false "2") "+" (.single (.truth true)))))
    (ofValue (.group (ofValue (.name "some_thing"))))

/-- A reader before a text, inside a class. -/
def readerBefore (text : String) : Reader (Pages State) := readerAt ["S"] ⟨{}, #[], start⟩ text

theorem sampleChoice_proper : sampleChoice.Proper := by
  simp only [sampleChoice, ofValue, Proper]
  decide

theorem expression_faithful_choice :
    let st := readerBefore
      "max(1, [x, 0x2f], \x7bk: v\x7d) if not b and c[0] == 2 + true else (some_thing)\n"
    sampleChoice.print (spelled {} ["S"] {}) = "( !b && c[0] == 2 + true ? Max(1, " ++
      "new Array\x7bx, 0x2f, \x7d, new Dictionary\x7b\x7bk, v\x7d,\x7d) : (some_thing) )" ∧
    ∃ t e st', expression (writer {}) (rules (writer {}) 40) st = .ok (t, e) st' ∧
      st'.view = { st.view with words := [(.lineEnd, "0")] } ∧
      ∀ d, d.classes = {} → ∃ d', (writer {}).serve (.expr e) d = .ok () d' ∧
        d'.classes = d.classes ∧ d'.pages = { d.pages with
          page := d.pages.page ++ sampleChoice.print (spelled {} ["S"] {}) } :=
  ⟨by decide +kernel, expression_faithful {} sampleChoice sampleChoice_proper 40 (by decide +kernel)
    _ (.lineEnd, "0") [] (by decide +kernel) (.lineEnd 0) rfl⟩

end GdScribe.CSharp
