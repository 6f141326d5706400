import GdScribe.Proofs.Blocks.Members

/-!
# Reading scripts

A reader goes through the members of a class, and through a script from its first line to its end.

Principal results: `classBodyWithin_reads` and `Keeper.run_done`.
-/

namespace GdScribe

open List

namespace Read

variable {σ : Type} {w : Writer σ} {K : Keeper w}
variable {r : Rules σ} {st : Stage} {p : Path} {rows : List Row} {es : List Entry} {m : Nat} {v : View σ}

/-! ## Where no member starts -/

variable {ws : List Word} {inner : ReadM σ Unit} {Q : Bool → View σ → Prop} {u : View σ} {n : String}

variable {k : TokenKind} {x : String}

/-- A member is looked for where none starts: only the end of the line is passed. -/
theorem classMember_skips (hw : v.words = (k, x) :: ws) (hx : ∀ y ∈ memberWords, x ≠ y) :
    (Ends (do endLine w; return true) v Q → Ends (classMember w r inner) v Q) ∧
      (Stays (do endLine w; return true) v Q → Stays (classMember w r inner) v Q) := by
  have skips (s : Reader σ) (hs : s.view = v) : classMember w r inner s = (do endLine w; return true : ReadM σ Bool)
      { s with history := .member s.firstWords :: s.history } := by
    refine member_skips fun y hy => ?_
    rw [show s.current.value = x from (Leads.head_eq hs hw).2]
    exact hx y hy
  constructor <;> intro h s hs <;> rw [skips s hs] <;> exact h _ hs

theorem lineWord_no_member (n : Nat) : ∀ y ∈ memberWords, toString n ≠ y := by
  have letters : ∀ y ∈ memberWords, ∃ c ∈ y.toList, c.isDigit = false := by decide
  exact fun y hy => toString_ne (letters y hy) n

/-! ## Classes -/

theorem Completes.append {done rest : List Row}
    (hle : ∀ next ∈ rest.head?, ∀ r ∈ done, next.indent ≤ r.indent) (hnext : nextIndent rest ≤ st.level)
    (h : Completes K (st.after done rest) (p.after done) rest u) : Completes K st p (done ++ rest) u := by
  obtain ⟨more, others, rfl, hle', hnext', hexit⟩ := h
  refine ⟨done ++ more, others, (append_assoc ..).symm, fun next hn y hy => ?_,
    le_trans hnext' hnext, hexit.append⟩
  rcases mem_append.mp hy with hold | hnew
  · -- the lines read before are no shallower than the one that came after them
    cases more with
    | nil => exact hle next hn y hold
    | cons first more =>
      have before := hle first rfl y hold
      have below : nextIndent others ≤ first.indent := hnext'
      rw [nextIndent_of_head hn] at below
      omega
  · exact hle' next hn y hnew

/-- What holds between the members of a class. -/
inductive ClassState (K : Keeper w) (st : Stage) (p : Path) (rows : List Row) (n : Nat) : View σ → Prop
  /-- The line that opens the class has not been left. -/
  | start {es : List Entry} {v : View σ} (hr : rows = codeRows es) (hl : 0 < st.level)
    (hw : v.words = tailWords es) (hc : Calm st p rows v.core) (hh : K.Holds st v.table v.pages)
    (hlen : v.words.length ≤ n) : ClassState K st p rows n v
  /-- The members so far have been read. -/
  | between {v : View σ} (h : Completes K st p rows v) (hlen : v.words.length ≤ n) : ClassState K st p rows n v

theorem ClassState.left {n : Nat} (h : ClassState K st p rows n v) (hlt : v.level < st.level) :
    v.words.length ≤ n ∧ ∃ done rest, rows = done ++ rest ∧
      (∀ next ∈ rest.head?, ∀ r ∈ done, next.indent ≤ r.indent) ∧
      (rest = [] ∨ nextIndent rest < st.level) ∧ Exits K st p done rest v := by
  cases h with
  | start hr hl hw hc hh hlen =>
    have level : v.level = st.level := hc.level
    omega
  | between h hlen =>
    obtain ⟨done, rest, hrows, hle, -, hexit⟩ := h
    have level : v.level = nextIndent rest := hexit.calm.level
    exact ⟨hlen, done, rest, hrows, hle, .inr (level ▸ hlt), hexit⟩

theorem class_start (hp : p.length = st.level) (hl : 0 < st.level)
    (hw : v.words = tailWords es) (hc : Calm st p (codeRows es) v.core) (hh : K.Holds st v.table v.pages) :
    Ends (classMember w r inner) v fun b v' => b = true ∧ Completes K st p (codeRows es) v' ∧
      v'.words.length ≤ v.words.length ∧ (v'.words.length < v.words.length ∨ v'.level < st.level) := by
  obtain ⟨n, ws, hes⟩ := tailWords_cons es
  have next : nextIndent (codeRows es) ≤ st.level := by
    cases hrows : codeRows es with
    | nil => exact Nat.zero_le _
    | cons x rest =>
      have legal := hc.legal
      rw [hrows] at legal
      rw [← hp]
      exact legal.1.reach
  obtain ⟨ws', p', hend, hholds, hahead, hlen, hless⟩ := endLine_lines K hw hh hc.level next
  refine (classMember_skips (hw.trans hes) (lineWord_no_member n)).1 ?_
  refine hend.bindEnds fun _ _ => .pure ⟨rfl, ⟨[], codeRows es, rfl, fun _ _ _ hy => (nomatch hy),
    next, hahead, ?_, ?_⟩, hlen, ?_⟩
  · rw [Stage.after_nil]
    exact hc.atLevel (nextIndent (codeRows es)) st.found st.inBody
  · rw [Stage.after_nil]
    exact hholds
  · by_cases hrows : codeRows es = []
    · refine .inr ?_
      rw [hrows]
      exact hl
    · exact .inl (hless hrows)

theorem InClass.outside {done : List Row} {x : Row} (h : InClass K st p rows u) (hr : rows = done ++ x :: codeRows es)
    (hle : ∀ next ∈ (x :: codeRows es).head?, ∀ r ∈ done, next.indent ≤ r.indent)
    (hx : x.indent = st.level) (hexit : Exits K st p done (x :: codeRows es) v) :
    Outside K (st.after done (x :: codeRows es)) (p.after done) x (codeRows es) v where
  calm := hexit.calm
  holds := hexit.holds
  inBody := h.inBody
  level := rfl
  classes := by
    show st.classes.length = x.indent + 1
    rw [hx]
    exact h.classes
  inner := by
    have legal := h.calm.legal
    rw [hr] at legal
    rw [Path.take_after legal (hle x rfl)]
    exact fun l hl => h.inner l (mem_of_mem_take hl)

/-- **The members of a class are read**, up to a line that does not belong to it. -/
theorem classBody_of_rules {k : Nat} (R : BlockReads K (block w r) m)
    (C : ClassReads K inner k) (h : InClass K st p rows u) (hm : u.words.length < m) (hk : u.words.length ≤ k) :
    Ends (whileMoving (do return st.level ≤ (← get).level) (fun _ => classRound w r inner) ()) u
      fun _ v' => v'.words.length ≤ u.words.length ∧ ∃ done rest, rows = done ++ rest ∧
        (∀ next ∈ rest.head?, ∀ r ∈ done, next.indent ≤ r.indent) ∧
        (rest = [] ∨ nextIndent rest < st.level) ∧ Exits K st p done rest v' := by
  have round {v : View σ} {Q : Bool → View σ → Prop} (h : Ends (classMember w r inner) v Q)
      (hq : ∀ b v', Q b v' → b = true) :
      Ends (classRound w r inner) v fun s v' => s = .yield () ∧ Q true v' := by
    refine h.bind fun b v' hb => ?_
    obtain rfl := hq b v' hb
    exact .ite_pos rfl (.pure ⟨rfl, hb⟩)
  refine Ends.whileMoving (c := fun v => decide (st.level ≤ v.level))
    (I := fun _ => ClassState K st p rows u.words.length) ?_ ?_ ?_ ?_
  · intro _ v _
    refine Leads.get_bind fun s hs => .pure ?_
    rw [show s.level = v.level from congrArg View.level hs]
  · exact fun _ v hv hc => hv.left (by simpa using hc)
  · intro _ v hv hc
    have level : st.level ≤ v.level := of_decide_eq_true hc
    cases hv with
    | start hr hl hw hc hh hlen =>
      subst hr
      refine .inl ((round (class_start h.length hl hw hc hh) fun _ _ hb => hb.1).mono ?_)
      rintro _ v' ⟨rfl, -, hv', hle, hless⟩
      exact ⟨(), rfl, .between hv' (le_trans hle hlen),
        hless.imp id fun hlt => decide_eq_false (not_le.mpr hlt)⟩
    | between hv hlen =>
      obtain ⟨done, rest, hrows, hle, hnext, hexit⟩ := hv
      have at_ : v.level = nextIndent rest := hexit.calm.level
      have hahead := hexit.ahead
      generalize hws : v.words = ws at hahead
      cases hahead with
      | done =>
        -- at the end of the script the reader no longer moves
        obtain ⟨p', hend, hholds⟩ := endLine_ahead K hexit.ahead hexit.holds
        have line : Stays (do endLine w; return true) v fun b v' => b = true ∧ v' = { v with pages := p' } :=
          hend.bind fun _ _ hv => .pure ⟨rfl, hv⟩
        refine .inr (((classMember_skips hws (by decide)).2 line).bind ?_)
        rintro _ _ ⟨rfl, rfl⟩
        refine .pure ⟨(), rfl, ⟨hlen, done, [], hrows, hle, .inl rfl, hexit.ahead, hexit.calm, hholds⟩, rfl⟩
      | line x es =>
        have indent : x.indent = st.level := le_antisymm hnext (le_trans level (le_of_eq at_))
        have outside := h.outside hrows hle indent hexit
        refine .inl ((round (classMember_reads R C outside hws (by omega) (by omega)) fun _ _ hb => hb.1).mono ?_)
        rintro _ v' ⟨rfl, -, hv', hless⟩
        refine ⟨(), rfl, .between ?_ (by omega), .inl hless⟩
        rw [hrows]
        exact hv'.append hle hnext
  · rcases h.due with ⟨hl, es, hr, hw⟩ | ⟨hnext, ha⟩
    · exact .start hr hl hw h.calm h.holds (le_refl _)
    · refine .between ⟨[], rows, rfl, fun _ _ _ hy => (nomatch hy), le_of_eq hnext, ha, ?_, ?_⟩ (le_refl _)
      · rw [Stage.after_nil, hnext]
        exact h.calm
      · rw [Stage.after_nil, hnext]
        exact h.holds

/-- **Classes are read** by the rules, which can be nested as deep as there are words. -/
theorem classBodyWithin_reads (R : BlockReads K (block w r) m) (n : Nat) :
    ClassReads K (classBodyWithin w r n) (min n m) := by
  induction n with
  | zero => exact fun _ _ _ _ _ hm => absurd hm (by omega)
  | succ n ih =>
    intro st p rows v h hm
    refine Ends.get_bind fun s hs => ?_
    rw [show s.level = st.level from (congrArg View.level hs).trans h.calm.level]
    exact classBody_of_rules R ih h (by omega) (by omega)

/-! ## Scripts -/

theorem script_first (hl : Legal [] rows) (ha : Ahead rows ws) :
    ∃ k x ws', ws = (k, x) :: ws' ∧ x ∈ ["func", "class", "EOF"] := by
  cases ha with
  | done => exact ⟨_, _, _, rfl, by decide⟩
  | line x es =>
    have member : x.line.isMember = true := by
      by_contra hm
      obtain ⟨_, hf, _⟩ := (hl.1.statement (by simpa using hm)).2.function
      cases hf
    match hx : x.line with
    | .function _ | .inner _ => exact ⟨_, _, _, rfl, by decide⟩
    | .simple _ | .head _ => rw [hx] at member; cases member

theorem nextIndent_script (hl : Legal [] rows) : nextIndent rows = 0 := by
  cases rows with
  | nil => rfl
  | cons x rows => exact Nat.le_zero.mp hl.1.reach

theorem endLine_due (hd : Due rows v.words) (hl : Legal [] rows) (hh : K.Holds st v.table v.pages)
    (hv : v.level = st.level) (h0 : st.level = 0) :
    Ends (endLine w) v fun _ v' => ∃ ws p', v' = { v with words := ws, pages := p' } ∧
      Ahead rows ws ∧ K.Holds st v.table p' ∧ ws.length ≤ v.words.length := by
  obtain ⟨ws, hws⟩ : ∃ ws, v.words = ws := ⟨_, rfl⟩
  have next := nextIndent_script hl
  rw [hws] at hd
  cases hd with
  | lines es =>
    obtain ⟨ws', p', hend, hholds, ha, hlen, -⟩ := endLine_lines K hws hh hv (by omega)
    refine hend.ends.mono ?_
    rintro _ _ ⟨-, rfl⟩
    rw [next, ← h0] at hholds
    refine ⟨ws', p', ?_, ha, hholds, hlen⟩
    rw [next, ← h0, ← hv]
  | ahead ha =>
    rw [← hws] at ha
    obtain ⟨p', hend, hholds⟩ := endLine_ahead K ha hh
    refine (hend.ends fun _ _ hv => by rw [hv]).mono ?_
    rintro _ _ rfl
    exact ⟨v.words, p', rfl, ha, hholds, le_refl _⟩

/-- **The start of a script** is read, up to its first member. -/
theorem header_reads (hn : Scan.IsIdentifier n) (hd : Due rows v.words)
    (hc : Calm {} [] rows v.core) (hh : K.Holds {} v.table v.pages)
    (hnew : v.table.contains n = false) (hne : n ∉ classNames rows) :
    Ends (header w n) v fun _ v' => InClass K { classes := [n] } [] rows v' ∧ v'.words.length ≤ v.words.length := by
  refine (Leads.note _).bindEnds fun _ _ => ?_
  refine (endLine_due hd hc.legal hh hc.level rfl).bind ?_
  rintro _ _ ⟨ws, p1, rfl, ha, h1, hlen⟩
  obtain ⟨k, x, ws', hws, hx⟩ := script_first hc.legal ha
  have none {y : String} (hy : y ∉ ["func", "class", "EOF"]) : x ≠ y := by
    rintro rfl
    exact hy hx
  have tool : Leads (expectPair "@" "tool") { v with words := ws, pages := p1 }
      { v with words := ws, pages := p1 } (· = false) := .miss hws (none nofun) (.pure rfl)
  refine tool.thenEnds ?_
  have unset : Leads (modify fun s => { s with isTool := false } : ReadM σ PUnit)
      { v with words := ws, pages := p1 } { v with words := ws, pages := p1 } := by
    refine Leads.change (fun s hs => ?_) (fun _ => rfl) rfl
    have same : s.isTool = false := (congrArg View.isTool hs).trans hc.isTool
    rw [← hs, ← same]
  refine unset.bindEnds fun _ _ => ?_
  refine (endLine_due (v := { v with words := ws, pages := p1 }) (.ahead ha) hc.legal h1 hc.level rfl).bind ?_
  rintro _ _ ⟨ws2, p2, rfl, ha2, h2, hlen2⟩
  obtain ⟨k, x, ws', hws, hx⟩ := script_first hc.legal ha2
  have none {y : String} (hy : y ∉ ["func", "class", "EOF"]) : x ≠ y := by
    rintro rfl
    exact hy hx
  let u : View σ := { v with words := ws2, pages := p2 }
  have unnamed {y : String} (z : String) (hy : y ∉ ["func", "class", "EOF"]) :
      Leads (lineName w y z) u u (· = z) := .miss hws (none hy) (.pure rfl)
  refine (unnamed n (by decide)).thenEnds <| (unnamed "Object" (by decide)).thenEnds ?_
  have again : Leads (nameAfter "class_name" n) u u (· = n) := .miss hws (none nofun) (.pure rfl)
  refine again.thenEnds ?_
  obtain ⟨p3, hstart, h3⟩ := startClass_leads (v := u) hc.isTool (K.main h2 hn hnew)
  refine hstart.bindEnds fun _ _ => ?_
  refine (endLine_due (v := { u with
    classes := n :: u.classes, table := u.table.declare n "Object", pages := p3 })
    (.ahead ha2) hc.legal h3 hc.level rfl).mono ?_
  rintro _ _ ⟨ws4, p4, rfl, ha4, h4, hlen4⟩
  have none : v.classes = [] := hc.classes
  refine ⟨⟨.inr ⟨nextIndent_script hc.legal, ha4⟩, ?_, h4, rfl, rfl, rfl, nofun⟩, ?_⟩
  · have calm := hc.enter hnew hne hn.typeText "Object"
    have core : View.core { u with
        words := ws4, classes := n :: u.classes, table := u.table.declare n "Object", pages := p4 } =
          { v.core with classes := [n], table := v.core.table.declare n "Object" } := by
      rw [none]
      rfl
    rw [core]
    exact calm
  · exact le_trans hlen4 (le_trans hlen2 hlen)

variable (K)

/-- A reader has come to the end of the class `n` and of its script. -/
structure Exhausted (n : String) (rows : List Row) (v : View σ) : Prop where
  words : v.words = [(.eof, "EOF")]
  quiet : v.lines = []
  known : v.table.contains n = true
  holds : K.Holds { classes := [n], found := rows.filter Row.speaks } v.table v.pages

variable {K}

theorem classBody_exhausts {d : Nat} (h : InClass K { classes := [n] } [] rows v) (hlen : v.words.length < d) :
    Ends (classBody w (rules w d)) v fun _ => Exhausted K n rows := by
  refine Leads.roundsLeft.thenEnds ?_
  refine (classBodyWithin_reads (block_reads K d) _ h (by omega)).mono ?_
  rintro _ v' ⟨-, done, rest, hrows, -, hrest, hexit⟩
  obtain rfl : rest = [] := hrest.elim id fun hlt => absurd hlt (Nat.not_lt_zero _)
  obtain rfl : rows = done := hrows.trans (append_nil done)
  have stage : Stage.after { classes := [n] } rows [] = { classes := [n], found := rows.filter Row.speaks } := rfl
  refine ⟨?_, hexit.calm.quiet, hexit.calm.known n mem_cons_self, stage ▸ hexit.holds⟩
  have ahead := hexit.ahead
  generalize v'.words = ws at ahead
  cases ahead
  rfl

/-- **A script is read** to its end. -/
theorem script_reads {d : Nat} (hn : Scan.IsIdentifier n) (hd : Due rows v.words)
    (hc : Calm {} [] rows v.core) (hh : K.Holds {} v.table v.pages)
    (hnew : v.table.contains n = false) (hne : n ∉ classNames rows) (hlen : v.words.length < d) :
    Ends (script w (rules w d) n) v fun _ v' =>
      v'.lines = [] ∧ K.Done (rows.filter Row.speaks) v'.pages := by
  refine (header_reads hn hd hc hh hnew hne).bind ?_
  rintro _ u ⟨hin, hu⟩
  have traced (v : View σ) : Leads (trace "reached EOF") v v := by
    refine Leads.change (fun s hs => ?_) (fun _ => rfl) rfl
    rw [← hs]
    unfold Reader.view Desk.note
    simp only [printed_note _ (show (Event.readStep _).printed? = none from rfl)]
  have body : Ends (scriptBody w (rules w d)) u fun _ => Exhausted K n rows := by
    refine (Ends.whileMoving_done (.pure rfl) ?_).bind fun _ _ h => .pure h
    refine .ite_pos (by decide) ((classBody_exhausts hin (by omega)).bind fun _ v' h => ?_)
    refine (Leads.kindIs h.words .eof).thenEnds (.ite_pos rfl ?_)
    exact (traced v').bindEnds fun _ _ => .pure ⟨0, rfl, h⟩
  refine body.bind fun _ v' h => ?_
  obtain ⟨t', p', hserve, hdone⟩ := K.finish h.holds h.known
  refine (Leads.ask hserve).ends.mono ?_
  rintro _ _ ⟨-, rfl⟩
  exact ⟨h.quiet, hdone⟩

end Read

variable {σ : Type} {w : Writer σ}

/-- What a script made of blocks and the desk that it is read at have to do with each other. -/
structure Welcome (n : String) (rows : List Row) (desk : Desk σ) : Prop where
  name : Scan.IsIdentifier n
  legal : Legal [] rows
  proper : ∀ r ∈ rows, r.line.Proper
  tame : desk.classes.Tame
  fresh : ∀ c ∈ n :: classNames rows, desk.classes.contains c = false
  distinct : (n :: classNames rows).Nodup
  quiet : desk.printedLines = []

/-- **A script made of blocks is read to its end**: there is no fault, nothing is printed, and the
target has its statements. -/
theorem Keeper.run_done (K : Keeper w) {n : String} {rows : List Row} {desk : Desk σ}
    (h : Welcome n rows desk) (hh : K.Holds {} desk.classes desk.pages) {lines : List String}
    (hl : lines.filter (fun l => !isBlankLine l) = rows.map Row.text) :
    (run w n (String.intercalate "\n" lines) desk).fault = none ∧
      (run w n (String.intercalate "\n" lines) desk).desk.printedLines = [] ∧
      K.Done (rows.filter Row.speaks) (run w n (String.intercalate "\n" lines) desk).desk.pages := by
  have first : ∀ r ∈ rows.head?, r.indent = 0 := fun r hr => by
    rw [← nextIndent_of_head hr]
    exact Read.nextIndent_script h.legal
  obtain ⟨ws, hdue, hlex⟩ := due_of_lines lines rows h.proper first hl
  obtain ⟨hwords, hnotices, hclosing⟩ := hlex 1 0
  change (scan (String.intercalate "\n" lines ++ "\n")).lexemes.map _ = ws at hwords
  change ∀ l ∈ (scan (String.intercalate "\n" lines ++ "\n")).lexemes, l.notices = [] at hnotices
  cases hlexemes : (scan (String.intercalate "\n" lines ++ "\n")).lexemes with
  | nil =>
    rw [hlexemes] at hwords
    cases hdue with
    | lines es =>
      obtain ⟨_, _, hes⟩ := Read.tailWords_cons es
      rw [hes] at hwords
      cases hwords
    | ahead ha =>
      obtain ⟨_, _, _, rfl, -⟩ := Read.ahead_first ha
      cases hwords
  | cons l rest =>
    rw [hlexemes] at hwords hnotices
    let s : Reader σ := startOf (String.intercalate "\n" lines) desk l rest
    have words : s.view.words = ws := hwords
    have quiet : s.view.lines = [] := by
      have log : s.desk.printedLines = [] := by
        show (desk.print l.notices).log.toList.filterMap Event.printed? = []
        rw [Read.printed_print, hnotices l mem_cons_self, append_nil]
        exact h.quiet
      have later : rest.flatMap (·.notices) = [] := flatMap_eq_nil_iff.mpr fun x hx => hnotices x (.tail _ hx)
      show s.desk.printedLines ++ rest.flatMap (·.notices) ++ s.closing = []
      rw [log, later]
      exact hclosing
    have calm : Calm {} [] rows s.view.core :=
      { level := rfl, classes := rfl, isTool := rfl, outside := rfl, quiet := quiet, locals := nofun
        table := h.tame, known := nofun, named := nofun
        fresh := fun c hc => h.fresh c (.tail _ hc)
        distinct := (nodup_cons.mp h.distinct).2, proper := h.proper, legal := h.legal }
    have length : s.view.words.length < Read.depth (rest.length + 1) := by
      show (rest.map _).length + 1 < rest.length + 1 + 8
      rw [length_map]
      omega
    obtain ⟨_, s', hs', ⟨hquiet, hdone⟩, -⟩ := Read.script_reads h.name (words ▸ hdue) calm hh
      (h.fresh n mem_cons_self) (nodup_cons.mp h.distinct).1 length s rfl
    rw [run_cons w n desk hlexemes, hs']
    exact ⟨rfl, (append_eq_nil_iff.mp (append_eq_nil_iff.mp hquiet).1).1, hdone⟩

end GdScribe
