import GdScribe.Proofs.Blocks.Place

/-!
# Reading lines and statements without a block

For any target with an invariant (`Keeper`): what a reader does between two lines of code, and for a
statement that has no block.

Principal results: `endLine_lines` and `endLine_ahead` for the end of a line, where the blocks are
closed that the next line does not belong to, and `statement_simple`.
-/

namespace GdScribe.Read

variable {σ β : Type} {w : Writer σ}

variable {q : Request} {P : σ → Prop} {R : β → View σ → Prop} {ws : List Word} {rows : List Row}

theorem Ends.ask {v : View σ} {f : Unit → ReadM σ β} (h : Answers w q v.table v.pages P)
    (hf : ∀ p', P p' → Ends (f ()) { v with pages := p' } R) : Ends (ask w q >>= f) v R := by
  obtain ⟨p', hs, hp⟩ := h
  exact (Leads.ask hs).bindEnds fun _ _ => hf p' hp

theorem Ends.deepen {v : View σ} {f : Nat → ReadM σ β}
    {n : Nat} (hn : v.level = n) (h : Answers w q v.table v.pages P)
    (hf : ∀ p', P p' → Ends (f (n + 1)) { v with level := n + 1, pages := p' } R) :
    Ends (deepen w q >>= f) v R := by
  obtain ⟨p', hs, hp⟩ := h
  have deeper : Leads (Read.deepen w q) v { v with level := n + 1, pages := p' } (· = n + 1) := by
    refine Leads.goDeeper.bind fun _ _ => ?_
    rw [hn]
    refine (Leads.ask (a := { v with level := n + 1 }) hs).bind fun _ _ => ?_
    exact .get_bind fun s hs => .pure (congrArg View.level hs)
  exact deeper.thenEnds (hf p' hp)

/-! ## Between lines -/

theorem numberOf_toString (n : Nat) : Token.numberOf (toString n) = n := by
  unfold Token.numberOf
  rw [Nat.toString_eq_ofList_toDigits, String.toList_ofList]
  exact Nat.ofDigitChars_toDigits (by decide) (by decide)

theorem line_words (l : Line) : ∃ s ws, l.words = textWord s :: ws := by
  match l with
  | .simple .pass | .simple .stop | .simple .skip | .simple (.result _) | .simple (.call _)
  | .head (.choice _) | .head (.alternative _) | .head .otherwise | .head (.loop _)
  | .head (.each ..) | .function _ | .inner _ => exact ⟨_, _, rfl⟩

theorem tailWords_cons (es : List Entry) : ∃ n ws, tailWords es = lineWord n :: ws := by
  cases es with
  | nil => exact ⟨_, _, rfl⟩
  | cons e es => cases e <;> exact ⟨_, _, rfl⟩

theorem length_tailWords (es : List Entry) : es.length < (tailWords es).length := by
  induction es with
  | nil => decide
  | cons e es ih => cases e <;> simp [tailWords] <;> omega

theorem passLines_step {v b : View σ} {m n : Nat} {ps : Passed} {Q : Passed → Prop} (hv : v.words = lineWord m :: ws)
    (h : Leads (passLines w n { ps with indent := some m, jumped := ps.jumped + 1 }) v.next b Q) :
    Leads (passLines w (n + 1) ps) v b Q := by
  refine (Leads.current hv).bind fun t ht => ?_
  have indent : t.indent = m := by rw [Token.indent, ht.2, numberOf_toString]
  rw [ht.1, indent]
  exact Leads.advance.bind fun _ _ => h

theorem passLines_tail (es : List Entry) : ∀ (v : View σ) (n : Nat) (ps : Passed),
    v.words = tailWords es → es.length ≤ n → ∃ k : Nat, ∃ ws,
      Leads (passLines w (n + 2) ps) v { v with words := ws }
        (· = { ps with indent := some (nextIndent (codeRows es)), jumped := ps.jumped + k }) ∧
      Ahead (codeRows es) ws ∧ ws.length ≤ v.words.length ∧
      (codeRows es ≠ [] → ws.length < v.words.length) := by
  induction es with
  | nil =>
    intro v n ps hv hn
    refine ⟨1, [(.eof, "EOF")], passLines_step hv ?_, .done, by rw [hv]; decide, nofun⟩
    have next : v.next = { v with words := [(.eof, "EOF")] } := by rw [View.next, hv]; rfl
    rw [next]
    exact Leads.passLines_here rfl rfl n _
  | cons e es ih =>
    intro v n ps hv hn
    rw [List.length_cons] at hn
    obtain ⟨n, rfl⟩ : ∃ k, n = k + 1 := ⟨n - 1, by omega⟩
    cases e with
    | blank m =>
      obtain ⟨m', ws', hes⟩ := tailWords_cons es
      have next : v.next = { v with words := tailWords es } := by
        rw [hes]
        exact Leads.next_eq (hv.trans (by rw [tailWords, hes]))
      obtain ⟨k, ws, hp, ha, hle, hlt⟩ := ih { v with words := tailWords es } n
        { ps with indent := some m, jumped := ps.jumped + 1 } rfl (by omega)
      have fewer : (tailWords es).length < v.words.length := by
        rw [hv]
        exact Nat.lt_succ_self _
      refine ⟨k + 1, ws, passLines_step hv ?_, ha, le_trans hle (le_of_lt fewer),
        fun _ => lt_of_le_of_lt hle fewer⟩
      rw [next]
      refine hp.mono ?_
      rintro _ rfl
      have jumped : ps.jumped + 1 + (k : Int) = ps.jumped + ((k + 1 : Nat) : Int) := by omega
      rw [← jumped]
      rfl
    | code r =>
      obtain ⟨x, xs, hx⟩ := line_words r.line
      have next : v.next = { v with words := r.line.words ++ tailWords es } := by
        rw [hx]
        exact Leads.next_eq (hv.trans (by rw [tailWords, hx]; rfl))
      refine ⟨1, _, passLines_step hv ?_, .line r es, ?_⟩
      · rw [next]
        exact Leads.passLines_here (congrArg (· ++ tailWords es) hx) rfl _ _
      · have fewer : (r.line.words ++ tailWords es).length < v.words.length := by
          rw [hv]
          exact Nat.lt_succ_self _
        exact ⟨le_of_lt fewer, fun _ => fewer⟩

variable (K : Keeper w) {st : Stage} {v : View σ}

theorem closeScopes_leads (n : Nat) : ∀ (st : Stage) (v : View σ), K.Holds st v.table v.pages →
    n ≤ st.level → ∃ p', Leads (closeScopes w n) v { v with pages := p' } ∧
      K.Holds { st with level := st.level - n } v.table p' := by
  induction n with
  | zero => exact fun st v h _ => ⟨v.pages, .pure trivial, h⟩
  | succ n ih =>
    intro st v h hn
    obtain ⟨p1, hserve, h1⟩ := K.close h (by omega)
    obtain ⟨p2, hrest, h2⟩ := ih { st with level := st.level - 1 } { v with pages := p1 } h1
      (show n ≤ st.level - 1 by omega)
    refine ⟨p2, (Leads.ask hserve).bind fun _ _ => hrest, ?_⟩
    have level : st.level - 1 - n = st.level - (n + 1) := by omega
    rw [← level]
    exact h2

theorem leaveScopes_leads (h : K.Holds st v.table v.pages) (hv : v.level = st.level) (indent : Nat) :
    ∃ p', Leads (leaveScopes w (some indent)) v { v with level := min st.level indent, pages := p' } ∧
      K.Holds { st with level := min st.level indent } v.table p' := by
  obtain ⟨p', hclose, h'⟩ := closeScopes_leads K (st.level - indent) st v h (Nat.sub_le ..)
  have level : st.level - (st.level - indent) = min st.level indent := by omega
  rw [level] at h'
  refine ⟨p', ?_, h'⟩
  have noted : Leads (noteLine (some indent)) v v := .note _
  refine noted.bind fun _ _ => Leads.get_bind fun s hs => ?_
  have hl : s.level = st.level := (congrArg View.level hs).trans hv
  rw [hl]
  refine hclose.bind fun _ _ => ?_
  by_cases hlt : indent < st.level
  · refine Leads.ite_pos hlt (Leads.change (fun s hs => ?_) (fun _ => rfl) rfl)
    have hmin : min st.level indent = indent := by omega
    rw [hmin]
    exact congrArg (fun u : View σ => { u with level := indent }) hs
  · refine Leads.ite_neg hlt ?_
    have hmin : min st.level indent = v.level := by omega
    rw [hmin]
    exact .pure trivial

/-- **The end of a line**, up to the next line of code. -/
theorem endLine_lines {es : List Entry} (hw : v.words = tailWords es)
    (h : K.Holds st v.table v.pages) (hv : v.level = st.level) (hle : nextIndent (codeRows es) ≤ st.level) :
    ∃ ws p', Leads (endLine w) v
        { v with words := ws, level := nextIndent (codeRows es), pages := p' } ∧
      K.Holds { st with level := nextIndent (codeRows es) } v.table p' ∧
      Ahead (codeRows es) ws ∧ ws.length ≤ v.words.length ∧
      (codeRows es ≠ [] → ws.length < v.words.length) := by
  have hn : es.length ≤ v.words.length + 1 := by
    rw [hw]
    have := length_tailWords es
    omega
  obtain ⟨k, ws, hpass, ha, hlen⟩ := passLines_tail es v (v.words.length + 1) {} hw hn
  obtain ⟨p1, hleave, h1⟩ := leaveScopes_leads K (v := { v with words := ws }) h hv (nextIndent (codeRows es))
  rw [min_eq_right hle] at hleave h1
  obtain ⟨p2, hput, h2⟩ := K.breaks h1 k
  refine ⟨ws, p2, ?_, h2, ha, hlen⟩
  refine Leads.roundsLeft.bindEq <| hpass.bindEq <| hleave.bind fun _ _ => ?_
  have jumped : (0 + (k : Int)).toNat = k := by omega
  show Leads (ask w (.put (Text.times "\n" (0 + (k : Int)).toNat))) ..
  rw [jumped]
  exact Leads.ask hput

theorem ahead_first (h : Ahead rows ws) : ∃ k s ws', ws = (k, s) :: ws' ∧ Leads.isLine k = false := by
  cases h with
  | done => exact ⟨_, _, _, rfl, rfl⟩
  | line r es =>
    obtain ⟨s, ws, hs⟩ := line_words r.line
    exact ⟨.text, s, ws ++ tailWords es, congrArg (· ++ tailWords es) hs, rfl⟩

theorem endLine_ahead (ha : Ahead rows v.words) (h : K.Holds st v.table v.pages) :
    ∃ p', Stays (endLine w) v (fun _ v' => v' = { v with pages := p' }) ∧ K.Holds st v.table p' := by
  obtain ⟨k, s, ws, hw, hk⟩ := ahead_first ha
  obtain ⟨p', hput, h'⟩ := K.breaks h 0
  refine ⟨p', fun s hs => ?_, h'⟩
  rw [Leads.endLine_on_code w (by rw [(Leads.head_eq hs hw).1, hk])]
  exact Stays.ask hput s hs

/-! ## Statements without a block -/

section simple

variable {r : Rules σ} {es : List Entry} {n : Nat} {ws : List Word}

theorem statement_lineEnd (hw : v.words = lineWord n :: ws) : Leads (statement w r) v v (· = none) := by
  iterate 11 refine .miss hw (toString_ne (by decide) n) ?_
  refine (Leads.current hw).bind fun t ht => ?_
  exact Leads.ite_pos (.inl ht.1) (.pure rfl)

theorem quietAt_outside (h : v.inParens = false) : QuietAt w v :=
  fun hi => absurd (h.symm.trans hi) Bool.false_ne_true

theorem endsExpression_lineWord (n : Nat) : EndsExpression (lineWord n) := (Follows.lineEnd n).endsExpression

/-- Nothing is left after a value at the end of a line. -/
def FollowReads (r : Rules σ) : Prop := ∀ (t : Ty) (a : View σ) (n : Nat) (ws : List Word),
  a.words = lineWord n :: ws → Leads (r.follow t) a a fun x => x.2 = .nothing

theorem expression_call {name : String} (hn : FreeName name) (hin : v.inParens = false)
    (hw : v.words = textWord name :: mark '(' :: mark ')' :: tailWords es) (hfollow : FollowReads r) :
    Leads (expression w r) v { v with words := tailWords es }
      fun x => x.2 = .seq (callTree v.table name []) .nothing := by
  obtain ⟨n, ws, hes⟩ := tailWords_cons es
  have args : Leads (callArguments w r) { v with words := mark ')' :: tailWords es }
      { v with words := tailWords es } (· = []) := by
    have closed : Leads (do return !(← expect ")")) { v with words := mark ')' :: tailWords es }
        { v with words := tailWords es } (· = false) := by
      rw [hes]
      exact (Leads.expect_hit rfl).bindEq (.pure rfl)
    exact (Rounds.done (Q := (· = [])) rfl closed).whileMoving.bindEq (.pure rfl)
  have call : Leads (value w r) v { v with words := tailWords es }
      fun x => x.2 = .seq (callTree v.table name []) .nothing := by
    refine value_text (quietAt_outside hin) hw hn.isName (.hit rfl ?_)
    refine (call_of_arguments hn.isName.nonempty args fun t => hfollow t _ n ws hes).mono ?_
    rintro x ⟨_, hx, rfl⟩
    exact hx
  refine (expression_of_value hw nofun call hes hin (endsExpression_lineWord n)).mono ?_
  rintro _ ⟨y, hy, rfl⟩
  exact hy

/-- **A statement without a block** asks for what it stands for, and is passed. -/
theorem statement_simple {s : Simple} (hs : (Line.simple s).Proper) (hin : v.inParens = false)
    (hw : v.words = s.words ++ tailWords es) (hfollow : FollowReads r) {P : σ → Prop}
    (hans : AnswersAll w (s.requests v.table) v.table v.pages P) :
    ∃ p', Leads (statement w r) v { v with words := tailWords es, pages := p' }
      (fun t => t = none ∨ t = some "int") ∧ P p' := by
  obtain ⟨n, ws, hes⟩ := tailWords_cons es
  cases s with
  | pass =>
    refine ⟨v.pages, ?_, hans⟩
    rw [hes] at hw ⊢
    exact .hit hw (.pure (.inl rfl))
  | stop =>
    obtain ⟨p', hserve, hp⟩ := hans
    refine ⟨p', ?_, hp⟩
    rw [hes] at hw ⊢
    iterate 9 refine .miss hw (by decide) ?_
    exact .hit hw <| (Leads.ask (a := { v with words := lineWord n :: ws }) hserve).bind fun _ _ => .pure (.inl rfl)
  | skip =>
    obtain ⟨p', hserve, hp⟩ := hans
    refine ⟨p', ?_, hp⟩
    rw [hes] at hw ⊢
    iterate 10 refine .miss hw (by decide) ?_
    exact .hit hw <| (Leads.ask (a := { v with words := lineWord n :: ws }) hserve).bind
        fun _ _ => .pure (.inl rfl)
  | result digits =>
    obtain ⟨p1, hhead, p2, hend, hp⟩ := hans
    refine ⟨p2, ?_, hp⟩
    rw [hes] at hw ⊢
    iterate 7 refine .miss hw nofun ?_
    refine .hit hw ?_
    have number : Leads (value w r) { v with words := (.int, digits) :: lineWord n :: ws }
        { v with words := lineWord n :: ws } (· = (some "int", .literal digits)) :=
      value_number (quietAt_outside hin) rfl (.inl rfl)
    refine (expression_of_value (k := .int) rfl nofun number rfl hin (endsExpression_lineWord n)).bind ?_
    rintro _ ⟨_, rfl, rfl⟩
    refine (Leads.ask (a := { v with words := lineWord n :: ws }) hhead).bind fun _ _ => ?_
    refine (Leads.ask hend).bind fun _ _ => ?_
    exact .pure (.inr rfl)
  | call name =>
    obtain ⟨p1, hexpr, p2, hend, hp⟩ := hans
    refine ⟨p2, ?_, hp⟩
    have name_ne {x : String} (hx : x ∈ keywords) : name ≠ x := FreeName.ne hs (.inl hx)
    iterate 11 refine .miss hw (name_ne (by decide)) ?_
    refine (Leads.current hw).bind fun t ht => Leads.ite_neg (by rw [ht.1]; decide) ?_
    refine Leads.bind (Q := fun _ => True) ?_ fun _ _ => .pure (.inl rfl)
    refine (expression_call hs hin hw hfollow).bind ?_
    rintro ⟨_, _⟩ rfl
    refine .miss hes (toString_ne (by decide) n) ?_
    refine (Leads.ask (a := { v with words := tailWords es }) hexpr).bind fun _ _ => ?_
    exact Leads.ask hend

end simple

end GdScribe.Read
