import GdScribe.Proofs.Blocks.Statements

/-!
# Reading statements with blocks

A reader goes through the statements of a block, and what it asks of a target keeps the blocks.

* `Reaches`: the same after a block, for some of the lines that were to come.

Principal results: `ifBranches_reads` and `block_reads`.
-/

namespace GdScribe.Read

open List

variable {σ : Type} {w : Writer σ} (K : Keeper w)

/-- The type that a block returns: only whole numbers are returned. -/
def IntOrNone (t : Ty) : Prop := t = none ∨ t = some "int"

variable {t : Ty}

theorem IntOrNone.orElse {u : Ty} (ht : IntOrNone t) (hu : IntOrNone u) : IntOrNone (t.orElse u) := by
  rcases ht with rfl | rfl
  · exact hu
  · exact .inr rfl

/-- A reader has read the lines `done` and stands before the next one. -/
structure Exits (st : Stage) (p : Path) (done rows : List Row) (v : View σ) : Prop where
  ahead : Ahead rows v.words
  calm : Calm (st.after done rows) (p.after done) rows v.core
  holds : K.Holds (st.after done rows) v.table v.pages

theorem Stage.after_after (st : Stage) (d1 d2 rows rows' : List Row) :
    (st.after d1 rows').after d2 rows = st.after (d1 ++ d2) rows := by
  unfold Stage.after
  rw [filter_append, append_assoc]

theorem Stage.after_nil (st : Stage) (rows : List Row) : st.after [] rows = { st with level := nextIndent rows } := by
  unfold Stage.after
  rw [filter_nil, append_nil]

variable {K}

variable {rows : List Row} {v v0 : View σ}

theorem Exits.append {st : Stage} {p : Path} {d1 d2 rows' : List Row}
    (h : Exits K (st.after d1 rows') (p.after d1) d2 rows v) : Exits K st p (d1 ++ d2) rows v := by
  obtain ⟨ha, hc, hh⟩ := h
  rw [Stage.after_after] at hc hh
  rw [← Path.after_append] at hc
  exact ⟨ha, hc, hh⟩

variable (K)

/-- Of the lines `rows` some are read, up to one that belongs to no block inside. -/
def Reaches (st : Stage) (p : Path) (rows : List Row) (t : Ty) (v : View σ) : Prop :=
  IntOrNone t ∧ ∃ done rest, rows = done ++ rest ∧ Leaves done rest ∧ nextIndent rest ≤ st.level ∧
    Exits K st p done rest v

/-- A reader stands behind the line before a block, in a function that `f` inner classes are
around. -/
structure Opened (st : Stage) (p : Path) (es : List Entry) (f : Nat) (v : View σ) : Prop where
  words : v.words = tailWords es
  calm : Calm st p (codeRows es) v.core
  scope : Answers w .openScope v.table v.pages (K.Holds { st with level := st.level + 1, inBody := true } v.table)
  opens : p.opens
  length : p.length = st.level + 1
  classes : st.classes.length = f + 1
  function : p.InFunction f
  inside : f ≤ st.level

/-- A block of fewer than `m` words is read. -/
def BlockReads (x : ReadM σ Ty) (m : Nat) : Prop :=
  ∀ ⦃st : Stage⦄ ⦃p : Path⦄ ⦃es : List Entry⦄ ⦃f : Nat⦄ ⦃v : View σ⦄, Opened K st p es f v →
    v.words.length < m → Ends x v fun t v' =>
      Reaches K { st with inBody := true } p (codeRows es) t v' ∧ v'.words.length < v.words.length

/-- A reader stands in a function that `f` inner classes are around, before a statement. -/
structure Inside (st : Stage) (p : Path) (x : Row) (rows : List Row) (f : Nat) (v : View σ) : Prop where
  calm : Calm st p (x :: rows) v.core
  holds : K.Holds st v.table v.pages
  inBody : st.inBody = true
  level : x.indent = st.level
  classes : st.classes.length = f + 1
  function : p.InFunction f
  inside : f < st.level

variable {K} {r : Rules σ} {st : Stage} {p : Path} {x : Row} {es : List Entry} {f m : Nat} {v : View σ}
variable {ws : List Word}

/-! ## The line before a block -/

theorem condition_reads {c : String} (hn : FreeName c) (hin : v.inParens = false)
    (hw : v.words = textWord c :: mark ':' :: ws) :
    Leads (boolean w r) v { v with words := mark ':' :: ws } fun x => ∃ role, x.2 = .name role c := by
  have name := value_name (r := r) (quietAt_outside (w := w) hin) hw hn.isName (by decide)
  refine (boolean_of_value hw nofun name rfl hin (by decide)).mono ?_
  rintro _ ⟨y, ⟨hy, -⟩, rfl⟩
  exact ⟨_, hy⟩

theorem Inside.atWords (h : Inside K st p x (codeRows es) f v) (ws : List Word) :
    Inside K st p x (codeRows es) f { v with words := ws } :=
  { h with }

theorem Inside.opened (h : Inside K st p x (codeRows es) f v) (ho : x.line.opens = true) {q : Request}
    (hq : q.IsHead) : Answers w q v.table v.pages fun p' =>
      Opened K st (p.step x) es f { v with words := tailWords es, pages := p' } := by
  have reach : x.indent ≤ p.length := h.calm.legal.1.reach
  have level := h.level
  have classes := h.classes
  have inside := h.inside
  obtain ⟨p', hserve, hscope⟩ := K.head h.holds h.inBody (by omega) hq
  refine ⟨p', hserve, ?_⟩
  exact
    { words := rfl
      calm := h.calm.drop (d := [x])
      scope := hscope
      opens := Path.opens_step.mpr ho
      length := by rw [Path.length_step reach, level]
      classes := classes
      function := h.function.congr (Path.take_step reach) (by omega)
      inside := le_of_lt inside }

theorem colon_reads (hw : v.words = mark ':' :: tailWords es) :
    Leads (expect ":") v { v with words := tailWords es } (· = true) := by
  obtain ⟨n, ws, hes⟩ := tailWords_cons es
  rw [hes] at hw ⊢
  exact Leads.expect_hit hw

theorem Stage.eq_inBody (h : st.inBody = true) : { st with inBody := true } = st := by
  cases st
  cases h
  rfl

theorem Exits.cons {d : List Row} (hx : x.speaks = false) (h : Exits K st (p.step x) d rows v) :
    Exits K st p (x :: d) rows v := by
  have same : st.after (x :: d) rows = st.after d rows := by
    unfold Stage.after
    rw [filter_cons_of_neg (by rw [hx]; decide)]
  obtain ⟨ha, hc, hh⟩ := h
  exact ⟨ha, same ▸ hc, same ▸ hh⟩

theorem speaks_of_opens (h : x.line.opens = true) : x.speaks = false := by
  unfold Row.speaks
  cases hx : x.line with
  | simple s =>
    rw [hx] at h
    cases h
  | _ => rfl

/-! ## Branches -/

variable {done : List Row}

/-- A reader that stands before a branch is in the function that it has been in before. -/
theorem Exits.inside (h : Exits K st p done (x :: codeRows es) v)
    (hlegal : Legal p (done ++ x :: codeRows es)) (hleave : Leaves done (x :: codeRows es))
    (hb : x.line.isBranch = true) (hbody : st.inBody = true) (hclasses : st.classes.length = f + 1)
    (hf : p.InFunction f) : Inside K (st.after done (x :: codeRows es)) (p.after done) x (codeRows es) f v := by
  have hlt := lt_of_branch hlegal hf hleave hb
  exact
    { calm := h.calm
      holds := h.holds
      inBody := hbody
      level := rfl
      classes := hclasses
      function := Path.inFunction_after hlegal (hleave.le nofun) hlt hf
      inside := hlt }

theorem branch_block (R : BlockReads K r.block m)
    (hleave : Leaves done (x :: codeRows es)) (hb : x.line.isBranch = true)
    (hbody : st.inBody = true)
    (h : Opened K (st.after done (x :: codeRows es)) ((p.after done).step x) es f v) (hm : v.words.length < m) :
    Ends r.block v fun t v' => IntOrNone t ∧ v'.words.length < v.words.length ∧
      ∃ d rest, codeRows es = d ++ rest ∧ Leaves d rest ∧ Leaves (done ++ x :: d) rest ∧
        nextIndent rest ≤ x.indent ∧ Exits K st p (done ++ x :: d) rest v' := by
  have ho : x.line.opens = true := by
    revert hb
    cases x.line <;> simp [Line.isBranch, Line.opens]
  refine (R h hm).mono ?_
  rintro t v' ⟨⟨ht, d, rest, hrows, hd, hnext, hexit⟩, hless⟩
  have body : (st.after done (x :: codeRows es)).inBody = true := hbody
  rw [Stage.eq_inBody body] at hexit
  refine ⟨ht, hless, d, rest, hrows, hd, ?_, hnext, (Exits.cons (speaks_of_opens ho) hexit).append⟩
  have own : Leaves (x :: d) rest := .both (.branch hb hnext) hd
  exact hleave.append own hnext

/-- What can stand before a reader that looks for branches. -/
inductive Branching : List Row → List Word → Prop
  | alternative {x : Row} {c : String} (es : List Entry) (hx : x.line = .head (.alternative c)) (hc : FreeName c) :
    Branching (x :: codeRows es) (textWord "elif" :: textWord c :: mark ':' :: tailWords es)
  | otherwise {x : Row} (es : List Entry) (hx : x.line = .head .otherwise) :
    Branching (x :: codeRows es) (textWord "else" :: mark ':' :: tailWords es)
  | none {rows : List Row} {k : TokenKind} {s : String} {ws : List Word} (hs : s ≠ "elif" ∧ s ≠ "else")
    (hr : ∀ x ∈ rows.head?, x.line.isBranch = false) : Branching rows ((k, s) :: ws)

theorem branching (h : Ahead rows ws) (hp : ∀ x ∈ rows, x.line.Proper) : Branching rows ws := by
  cases h with
  | done => exact .none (by decide) nofun
  | line x es =>
    have proper := hp x mem_cons_self
    cases hx : x.line with
    | head h =>
      rw [hx] at proper
      cases h with
      | alternative c => exact .alternative es hx proper
      | otherwise => exact .otherwise es hx
      | _ => exact .none (by decide) fun y hy => by cases hy; rw [hx]; rfl
    | simple s =>
      rw [hx] at proper
      have hb : ∀ y ∈ (x :: codeRows es).head?, y.line.isBranch = false := fun y hy => by
        cases hy
        rw [hx]
        rfl
      cases s with
      | call n =>
        have free : FreeName n := proper
        exact .none ⟨free.ne (.inl (by decide)), free.ne (.inl (by decide))⟩ hb
      | _ => exact .none (by decide) hb
    | _ => exact .none (by decide) fun y hy => by cases hy; rw [hx]; rfl

/-- **Branches are read** up to a line that is none, or that comes after an `else`. They can belong to
any of the blocks around; the last of them is never left for a branch beside it. -/
theorem ifBranches_reads (R : BlockReads K r.block m)
    (hlegal : Legal p rows) (hbody : st.inBody = true) (hclasses : st.classes.length = f + 1)
    (hf : p.InFunction f) (h : Reaches K st p rows t v) (hm : v.words.length < m) :
    Ends (ifBranches w r t) v fun t' v' => IntOrNone t' ∧ v'.words.length ≤ v.words.length ∧
      ∃ done rest, rows = done ++ rest ∧ Leaves done rest ∧ nextIndent rest ≤ st.level ∧
        Settled st.level rest ∧ Exits K st p done rest v' := by
  have loop : Ends (whileExpected "elif" (fun t => do
      let x ← boolean w r
      ask w (.elifHead x.2)
      let _ ← expect ":"
      return .yield (t.orElse (← r.block))) t) v fun t u =>
        Reaches K st p rows t u ∧ u.words.length ≤ v.words.length ∧
          ∀ ws, u.words ≠ textWord "elif" :: ws := by
    refine Ends.whileExpected (I := fun t u => Reaches K st p rows t u ∧
      u.words.length ≤ v.words.length) ?_ ⟨h, le_refl _⟩
    rintro t u ⟨⟨ht, done, rest, rfl, hleave, hnext, hexit⟩, hlen⟩
    have hbranching := branching hexit.ahead hexit.calm.proper
    obtain ⟨ws, hws⟩ : ∃ ws, u.words = ws := ⟨_, rfl⟩
    rw [hws] at hbranching
    cases hbranching with
    | none hs _ =>
      refine .inl ⟨Leads.expect_miss hws hs.1, ⟨ht, done, rest, rfl, hleave, hnext, hexit⟩, hlen, ?_⟩
      exact fun ws hw => hs.1 (congrArg Prod.snd (cons.inj (hws.symm.trans hw)).1)
    | otherwise es hx =>
      refine .inl ⟨Leads.expect_miss hws nofun, ⟨ht, done, _, rfl, hleave, hnext, hexit⟩, hlen, ?_⟩
      exact fun ws hw => absurd (cons.inj (hws.symm.trans hw)).1 nofun
    | @alternative x c es hx hc =>
      have hb : x.line.isBranch = true := by rw [hx]; rfl
      have inside := hexit.inside hlegal hleave hb hbody hclasses hf
      refine .inr ⟨_, Leads.expect_hit hws, ?_⟩
      refine (condition_reads (v := { u with words := textWord c :: mark ':' :: tailWords es }) hc
        hexit.calm.outside rfl).bindEnds ?_
      rintro ⟨_, _⟩ ⟨role, rfl⟩
      refine Ends.ask ((inside.atWords (mark ':' :: tailWords es)).opened (by rw [hx]; rfl)
        (q := .elifHead (.name role c)) hc) fun p' hopen => ?_
      refine (colon_reads rfl).thenEnds ?_
      have fewer : (tailWords es).length + 3 = u.words.length := by rw [hws]; rfl
      refine (branch_block R hleave hb hbody hopen (show (tailWords es).length < m by omega)).bind ?_
      rintro t' v' ⟨ht', hless, d, rest, hrows, -, hleave', hnext', hexit'⟩
      have hless' : v'.words.length < (tailWords es).length := hless
      have level : x.indent ≤ st.level := hnext
      refine .pure ⟨_, rfl, ⟨⟨ht.orElse ht', done ++ x :: d, rest, ?_, hleave', by omega, hexit'⟩,
        by omega⟩, by omega⟩
      rw [hrows, append_assoc]
      rfl
  refine loop.bind ?_
  rintro t u ⟨⟨ht, done, rest, rfl, hleave, hnext, hexit⟩, hlen, hno⟩
  have hbranching := branching hexit.ahead hexit.calm.proper
  generalize hws : u.words = ws at hbranching
  cases hbranching with
  | alternative es _ _ => exact absurd hws (hno _)
  | none hs hr =>
    have missed : Leads (expectPair "else" ":") u u (· = false) :=
      .miss hws hs.2 (.pure rfl)
    refine missed.thenEnds (.ite_neg nofun (.pure ⟨ht, hlen, done, rest, rfl, hleave, hnext, ?_, hexit⟩))
    exact fun y hy _ => hr y hy
  | @otherwise x es hx =>
    have hb : x.line.isBranch = true := by rw [hx]; rfl
    have inside := hexit.inside hlegal hleave hb hbody hclasses hf
    have passed : Leads (expectPair "else" ":") u { u with words := tailWords es } (· = true) :=
      .hit hws (colon_reads rfl)
    refine passed.thenEnds (.ite_pos rfl ?_)
    refine Ends.ask ((inside.atWords (tailWords es)).opened (by rw [hx]; rfl)
      trivial) fun p' hopen => ?_
    have fewer : (tailWords es).length + 2 = u.words.length := by rw [hws]; rfl
    refine (branch_block R hleave hb hbody hopen (show (tailWords es).length < m by omega)).bind ?_
    rintro t' v' ⟨ht', hless, d, rest, hrows, hd, hleave', hnext', hexit'⟩
    have hless' : v'.words.length < (tailWords es).length := hless
    have level : x.indent ≤ st.level := hnext
    have rows_eq : done ++ x :: codeRows es = done ++ x :: d ++ rest := by
      rw [hrows, append_assoc]
      rfl
    refine .pure ⟨ht.orElse ht', by omega, done ++ x :: d, rest, rows_eq, hleave', by omega, ?_, hexit'⟩
    -- beside an `else` there is no other branch
    rcases lt_or_eq_of_le level with hlt | heq
    · exact .of_lt (by omega)
    · rw [← heq]
      have after := Legal.drop hlegal
      rw [hrows] at after
      exact settled_of_leaves after.2 ⟨x.line, Path.getElem?_step after.1.reach, by rw [hx]; rfl⟩ hd

/-! ## Loops -/

theorem nameType_tame {s : Reader σ} (h : Calm st p rows s.view.core) {n : String}
    (hn : TypeText n) : TameTy (nameType s n) := by
  have own : s.ownClass.Tame := h.table _
  have globals : s.desk.classes.globals.Tame := h.table _
  have parent : s.parentClass.Tame := ClassTable.Tame.parent h.table _
  have className : TypeText s.className := by
    unfold Reader.className
    have classes : s.classes = st.classes := h.classes
    cases hc : s.classes with
    | nil => exact .empty
    | cons c cs => exact h.named c (by rw [← classes, hc]; exact .head _)
  refine (TameTy.of_table own.members n).orElse <| (TameTy.of_table parent.members n).orElse <|
    (TameTy.of_table h.locals n).orElse <| (TameTy.of_table own.constants n).orElse <|
    (TameTy.of_table globals.constants n).orElse <| (TameTy.of_table own.enums n).orElse <|
    TameTy.orElse ?_ ?_
  · split
    · rintro _ ⟨⟩
      exact className
    · nofun
  · split
    · rintro _ ⟨⟩
      exact hn
    · nofun

theorem TameTy.unmarked (h : TameTy t) : TameTy (unmarked t) := by
  unfold Read.unmarked
  split
  · intro type ht
    obtain ⟨u, rfl, rfl⟩ := Option.map_eq_some_iff.mp ht
    exact (h u rfl).dropEnd _
  · exact h

theorem elementType_typeText (h : TameTy t) : TypeText (elementType t) := by
  unfold elementType
  cases t with
  | none => decide
  | some type =>
    dsimp only
    split
    · decide
    · exact (h type rfl).replaceAll .empty nofun

theorem sequence_reads (h : Calm st p rows v.core) {c : String} (hn : FreeName c)
    (hw : v.words = textWord c :: mark ':' :: ws) :
    Leads (expression w r) v { v with words := mark ':' :: ws } fun x =>
      TameTy x.1 ∧ ∃ role, x.2 = .name role c := by
  have hin : v.inParens = false := h.outside
  have name := value_name (r := r) (quietAt_outside (w := w) hin) hw hn.isName (by decide)
  refine (expression_of_value hw nofun name rfl hin (by decide)).mono ?_
  rintro _ ⟨y, ⟨hy, s, hs, htype⟩, rfl⟩
  refine ⟨TameTy.unmarked ?_, _, hy⟩
  have core : Calm st p rows s.view.core := by rw [hs]; exact h
  have known := nameType_tame core hn.typeText
  rcases htype with htype | htype
  · rw [htype]
    exact known
  · rw [htype]
    intro type ht
    obtain ⟨u, hu, rfl⟩ := Option.map_eq_some_iff.mp ht
    exact (known u hu).append (by decide)

/-! ## Statements -/

/-- A reader has read the statement in the line `x` with all its blocks and branches. -/
def Passes (K : Keeper w) (st : Stage) (p : Path) (x : Row) (rows : List Row) (t : Ty) (v : View σ) : Prop :=
  IntOrNone t ∧ ∃ done rest, rows = done ++ rest ∧ Leaves done rest ∧ nextIndent rest ≤ st.level ∧
    Settled st.level rest ∧ Exits K st p (x :: done) rest v

theorem Inside.isStatement (h : Inside K st p x (codeRows es) f v) : x.line.isMember = false := by
  by_contra hm
  have member := h.calm.legal.1.member (by simpa using hm)
  obtain ⟨l, hl, hfun⟩ := h.function.function
  have hlt : f < x.indent := by have := h.inside; have := h.level; omega
  have hin := member.2 l (mem_of_getElem? ((getElem?_take_of_lt hlt).trans hl))
  cases l with
  | function _ => cases hin
  | _ => cases hfun

/-- After the block of a line without branches the statement is complete. -/
theorem Reaches.passes (h : Inside K st p x (codeRows es) f v) (ho : x.line.opens = true)
    (hb : x.line.branches = false) {v' : View σ}
    (hr : Reaches K st (p.step x) (codeRows es) t v') : Passes K st p x (codeRows es) t v' := by
  obtain ⟨ht, done, rest, hrows, hleave, hnext, hexit⟩ := hr
  refine ⟨ht, done, rest, hrows, hleave, hnext, ?_, hexit.cons (speaks_of_opens ho)⟩
  have legal := h.calm.legal
  rw [hrows] at legal
  rw [← h.level]
  exact settled_of_leaves legal.2 ⟨x.line, Path.getElem?_step legal.1.reach, hb⟩ hleave

/-- **A statement with blocks is read**, with its branches and maybe those of the blocks around. -/
theorem statement_nested (R : BlockReads K r.block m) (h : Inside K st p x (codeRows es) f v)
    (ho : x.line.opens = true) (hb : x.line.isBranch = false)
    (hw : v.words = x.line.words ++ tailWords es) (hm : v.words.length ≤ m) :
    Ends (statement w r) v fun t v' =>
      Passes K st p x (codeRows es) t v' ∧ v'.words.length < v.words.length := by
  have proper := h.calm.proper x mem_cons_self
  have statement := h.isStatement
  have hin : v.inParens = false := h.calm.outside
  have block {u : View σ} (hopen : Opened K st (p.step x) es f u) (hu : u.words.length < v.words.length) :
      Ends r.block u fun t v' => Reaches K st (p.step x) (codeRows es) t v' ∧ v'.words.length < v.words.length :=
    (R hopen (by omega)).mono fun t v' hv => ⟨Stage.eq_inBody h.inBody ▸ hv.1, by omega⟩
  match hx : x.line with
  | .simple _ => rw [hx] at ho; cases ho
  | .function _ | .inner _ => rw [hx] at statement; cases statement
  | .head (.alternative _) | .head .otherwise => rw [hx] at hb; cases hb
  | .head (.choice c) =>
    rw [hx] at hw proper
    have fewer : (tailWords es).length + 3 = v.words.length := by rw [hw]; rfl
    iterate 3 refine .miss hw nofun ?_
    refine .hit hw ?_
    refine (condition_reads (v := { v with words := textWord c :: mark ':' :: tailWords es }) proper
      hin rfl).bindEnds ?_
    rintro ⟨_, _⟩ ⟨role, rfl⟩
    refine Ends.ask ((h.atWords (mark ':' :: tailWords es)).opened ho (q := .ifHead (.name role c)) proper)
      fun p' hopen => ?_
    refine (colon_reads rfl).thenEnds ?_
    refine (block hopen (show (tailWords es).length < _ by omega)).bind ?_
    rintro t u ⟨hreach, hless⟩
    refine (ifBranches_reads R h.calm.legal.2 h.inBody h.classes hopen.function hreach (by omega)).mono ?_
    rintro t' v' ⟨ht, hlen, done, rest, hrows, hleave, hnext, hsettled, hexit⟩
    exact ⟨⟨ht, done, rest, hrows, hleave, hnext, hsettled, hexit.cons (speaks_of_opens ho)⟩, by omega⟩
  | .head (.loop c) =>
    rw [hx] at hw proper
    have fewer : (tailWords es).length + 3 = v.words.length := by rw [hw]; rfl
    iterate 4 refine .miss hw nofun ?_
    refine .hit hw ?_
    refine (condition_reads (v := { v with words := textWord c :: mark ':' :: tailWords es }) proper
      hin rfl).bindEnds ?_
    rintro ⟨_, _⟩ ⟨role, rfl⟩
    refine Ends.ask ((h.atWords (mark ':' :: tailWords es)).opened ho (q := .whileHead (.name role c)) proper)
      fun p' hopen => ?_
    refine (colon_reads rfl).thenEnds ?_
    exact (block hopen (show (tailWords es).length < _ by omega)).mono fun _ _ hu =>
      ⟨hu.1.passes h ho (by rw [hx]; rfl), hu.2⟩
  | .head (.each a b) =>
    rw [hx] at hw proper
    have fewer : (tailWords es).length + 5 = v.words.length := by rw [hw]; rfl
    iterate 5 refine .miss hw (by decide) ?_
    refine .hit hw ?_
    refine (Leads.consume rfl).thenEnds ?_
    have untyped : Leads (typeAfter ":")
        { v with words := textWord "in" :: textWord b :: mark ':' :: tailWords es }
        { v with words := textWord "in" :: textWord b :: mark ':' :: tailWords es } (· = none) :=
      .miss rfl (by decide) (.pure rfl)
    refine untyped.thenEnds ?_
    refine (Leads.expect_hit rfl).thenEnds ?_
    refine (sequence_reads (v := { v with words := textWord b :: mark ':' :: tailWords es }) h.calm
      proper.2 rfl).bindEnds ?_
    rintro ⟨t, _⟩ ⟨htame, role, rfl⟩
    have element := elementType_typeText htame
    have inside : Inside K st p x (codeRows es) f
        { v with words := mark ':' :: tailWords es, locals := v.locals.put a (some (elementType t)) } :=
      { h with calm := { h.calm with locals := h.calm.locals.put a element }, holds := h.holds }
    refine (Leads.learn a (some (elementType t))).bindEnds fun _ _ => ?_
    refine Ends.ask (inside.opened ho (q := .forHead a (elementType t) (.name role b))
      ⟨proper.1, element, proper.2⟩) fun p' hopen => ?_
    refine (colon_reads rfl).thenEnds ?_
    exact (block hopen (show (tailWords es).length < _ by omega)).mono fun _ _ hu =>
      ⟨hu.1.passes h ho (by rw [hx]; rfl), hu.2⟩

theorem Inside.answers (h : Inside K st p x (codeRows es) f v) {s : Simple} (hx : x.line = .simple s) :
    AnswersAll w (s.requests v.table) v.table v.pages
      (K.Holds { st with found := st.found ++ [x].filter Row.speaks } v.table) := by
  have place : x = ⟨st.level, st.classes.length - 1, .simple s⟩ := by
    have nesting := (h.calm.legal.1.statement h.isStatement).2.unique h.function
    rw [h.classes, Nat.add_sub_cancel, ← h.level, ← nesting, ← hx]
  have proper := h.calm.proper x mem_cons_self
  rw [hx] at proper
  by_cases hs : s = .pass
  · subst hs
    have silent : x.speaks = false := by rw [place]; rfl
    rw [filter_cons_of_neg (by rw [silent]; decide), filter_nil, append_nil]
    exact h.holds
  · have speaks : x.speaks = true := by
      rw [place]
      cases s <;> first | rfl | exact absurd rfl hs
    rw [filter_cons_of_pos speaks]
    have classes := h.classes
    have inside := h.inside
    rw [place]
    exact K.simple h.holds h.inBody (by omega) (by omega) hs proper

theorem statement_line (R : BlockReads K r.block m) (F : FollowReads r)
    (h : Inside K st p x (codeRows es) f v) (hb : x.line.isBranch = false)
    (hw : v.words = x.line.words ++ tailWords es) (hm : v.words.length ≤ m) {α : Type}
    {g : Ty → ReadM σ α} {Q : α → View σ → Prop}
    (hg : ∀ t v', Passes K st p x (codeRows es) t v' → v'.words.length < v.words.length →
      Ends (g t) v' Q) : Ends (do let t ← statement w r; endLine w; g t) v Q := by
  by_cases ho : x.line.opens = true
  · refine (statement_nested R h ho hb hw hm).bind ?_
    rintro t u ⟨⟨ht, done, rest, hrows, hleave, hnext, hsettled, hexit⟩, hless⟩
    obtain ⟨p', hend, hholds⟩ := endLine_ahead K hexit.ahead hexit.holds
    refine (hend.ends fun _ _ hv => by rw [hv]).bind ?_
    rintro _ _ rfl
    exact hg t _ ⟨ht, done, rest, hrows, hleave, hnext, hsettled, hexit.ahead, hexit.calm, hholds⟩ hless
  · obtain ⟨s, hx⟩ : ∃ s, x.line = .simple s := by
      have member := h.isStatement
      cases hx : x.line with
      | simple s => exact ⟨s, rfl⟩
      | head _ => exact absurd (by rw [hx]; rfl) ho
      | _ => rw [hx] at member; cases member
    have legal := h.calm.legal
    have proper := h.calm.proper x mem_cons_self
    rw [hx] at hw proper
    obtain ⟨p1, hread, hholds⟩ := statement_simple proper h.calm.outside hw F (h.answers hx)
    have next : nextIndent (codeRows es) ≤ st.level := by
      have last : ∃ l, (p.step x).getLast? = some l ∧ l.isSimple = true :=
        ⟨x.line, Path.getLast?_step, by rw [hx]; rfl⟩
      have level := h.level
      cases hrows : codeRows es with
      | nil => exact Nat.zero_le _
      | cons y rows =>
        rw [hrows] at legal
        have := legal.2.1.simple last
        rw [Path.length_step legal.1.reach] at this
        show y.indent ≤ st.level
        omega
    have fewer : (tailWords es).length < v.words.length := by
      rw [hw, length_append]
      obtain ⟨_, _, (first : s.words = _)⟩ := line_words (.simple s)
      show _ < s.words.length + _
      rw [first, length_cons]
      omega
    obtain ⟨ws, p2, hend, hholds', hahead, hlen, -⟩ := endLine_lines K
      (v := { v with words := tailWords es, pages := p1 }) rfl hholds h.calm.level next
    have hlen' : ws.length ≤ (tailWords es).length := hlen
    refine hread.bindEnds fun t ht => hend.bindEnds fun _ _ => hg t _ ?_ (show ws.length < _ by omega)
    refine ⟨ht, [], codeRows es, rfl, .nil _, next, ?_, hahead, ?_, hholds'⟩
    · rw [← h.level]
      exact settled_of_leaves legal.2 ⟨x.line, Path.getElem?_step legal.1.reach, by rw [hx]; rfl⟩ (.nil _)
    · exact (h.calm.drop (d := [x])).atLevel (nextIndent (codeRows es)) (st.found ++ [x].filter Row.speaks) st.inBody

/-! ## Blocks -/

/-- What holds between the statements of a block with the indentation `n`. -/
inductive BlockState (K : Keeper w) (st : Stage) (p : Path) (es : List Entry) (n : Nat) (v0 : View σ) :
    Ty → View σ → Prop
  /-- The first line of the block has not been reached. -/
  | start {t : Ty} {v : View σ} (ht : IntOrNone t) (hw : v.words = tailWords es)
    (hc : Calm { st with level := n } p (codeRows es) v.core)
    (hh : K.Holds { st with level := n } v.table v.pages) (hlen : v.words.length = v0.words.length) :
    BlockState K st p es n v0 t v
  /-- A statement of the block follows. -/
  | within {t : Ty} {v : View σ} {done rows : List Row} (ht : IntOrNone t)
    (hr : codeRows es = done ++ rows) (hx : Exits K st p done rows v) (hn : nextIndent rows = n)
    (hd : ∀ r ∈ done, n ≤ r.indent) (hs : Settled n rows) (hlen : v.words.length < v0.words.length) :
    BlockState K st p es n v0 t v
  /-- The next line does not belong to the block. -/
  | left {t : Ty} {v : View σ} {done rows : List Row} (ht : IntOrNone t)
    (hr : codeRows es = done ++ rows) (hx : Exits K st p done rows v) (hn : nextIndent rows < n)
    (hd : Leaves done rows) (hlen : v.words.length < v0.words.length) :
    BlockState K st p es n v0 t v

theorem BlockState.level {n : Nat} (h : BlockState K st p es n v0 t v) :
    v.level ≤ n ∧ (v.level < n → ∃ done rows, codeRows es = done ++ rows ∧ Exits K st p done rows v ∧
      nextIndent rows < n ∧ Leaves done rows ∧ IntOrNone t ∧ v.words.length < v0.words.length) := by
  cases h with
  | start ht hw hc hh hlen =>
    have level : v.level = n := hc.level
    exact ⟨le_of_eq level, fun hlt => absurd level (ne_of_lt hlt)⟩
  | within ht hr hx hn hd hs hlen =>
    have level : v.level = n := hx.calm.level.trans hn
    exact ⟨le_of_eq level, fun hlt => absurd level (ne_of_lt hlt)⟩
  | left ht hr hx hn hd hlen =>
    have level : v.level = nextIndent _ := hx.calm.level
    exact ⟨by omega, fun _ => ⟨_, _, hr, hx, hn, hd, ht, hlen⟩⟩

/-- One round of a block: the line ends before its first statement are passed, or a statement is
read. -/
theorem block_round (R : BlockReads K r.block m) (F : FollowReads r)
    (h : Opened K st p es f v0) (hbody : st.inBody = true) (hm : v0.words.length ≤ m)
    (hs : BlockState K st p es (st.level + 1) v0 t v) (hlevel : st.level + 1 ≤ v.level) :
    Ends (do
      let t' ← statement w r
      endLine w
      return ForInStep.yield (t.orElse t')) v fun s v' => ∃ t', s = .yield t' ∧
        BlockState K st p es (st.level + 1) v0 t' v' ∧ v'.words.length < v.words.length := by
  cases hs with
  | left _ _ hx hn _ _ =>
    have level : v.level = nextIndent _ := hx.calm.level
    omega
  | start ht hw hc hh hlen =>
    obtain ⟨n, ws, hes⟩ := tailWords_cons es
    -- a block is not empty, and its first line is one deeper
    obtain ⟨x, rows, hrows⟩ : ∃ x rows, codeRows es = x :: rows := by
      cases hrows : codeRows es with
      | nil =>
        have legal := hc.legal
        rw [hrows] at legal
        exact absurd h.opens legal
      | cons x rows => exact ⟨x, rows, rfl⟩
    have legal := hc.legal
    rw [hrows] at legal
    have first : x.indent = st.level + 1 := (legal.1.opened h.opens).trans h.length
    have next : nextIndent (codeRows es) = st.level + 1 := by rw [hrows]; exact first
    obtain ⟨ws', p', hend, hholds, hahead, -, hless⟩ := endLine_lines K hw hh hc.level (le_of_eq next)
    refine (statement_lineEnd (hw.trans hes)).thenEnds (hend.bindEnds fun _ _ => ?_)
    have fewer : ws'.length < v.words.length := hless (by rw [hrows]; nofun)
    refine .pure ⟨_, rfl, .within (ht.orElse (.inl rfl)) (nil_append _).symm
      ⟨hahead, ?_, ?_⟩ next nofun ?_ (show ws'.length < v0.words.length by omega), fewer⟩
    · rw [Stage.after_nil]
      exact hc.atLevel (nextIndent (codeRows es)) st.found st.inBody
    · rw [Stage.after_nil]
      exact hholds
    · intro y hy _
      rw [hrows] at hy
      cases hy
      by_contra hb
      obtain ⟨l, hl, -⟩ := legal.1.branch (by simpa using hb)
      have hlt := (List.getElem?_eq_some_iff.mp hl).1
      have := h.length
      omega
  | @within done rows ht hr hx hn hd hs hlen =>
    have hahead := hx.ahead
    obtain ⟨ws, hws⟩ : ∃ ws, v.words = ws := ⟨_, rfl⟩
    rw [hws] at hahead
    cases hahead with
    | done => cases hn
    | line x es' =>
      have indent : x.indent = st.level + 1 := hn
      have legal := h.calm.legal
      rw [hr] at legal
      have hf := h.inside
      have inside : Inside K (st.after done (x :: codeRows es')) (p.after done) x (codeRows es') f v :=
        { calm := hx.calm
          holds := hx.holds
          inBody := hbody
          level := rfl
          classes := h.classes
          function := Path.inFunction_after legal hd (by omega) h.function
          inside := show f < x.indent by omega }
      refine statement_line R F inside (hs x rfl indent) hws (by omega) fun t' v' hpass hless => ?_
      obtain ⟨ht', done', rest, hrows, hleave, hnext, hsettled, hexit⟩ := hpass
      have hnext' : nextIndent rest ≤ x.indent := hnext
      have whole : codeRows es = done ++ x :: done' ++ rest := by
        rw [hr, hrows, append_assoc]
        rfl
      rcases lt_or_eq_of_le hnext' with hlt | heq
      · refine .pure ⟨_, rfl, .left (ht.orElse ht') whole hexit.append (by omega) ?_ (by omega), hless⟩
        have deeper : Leaves (done ++ [x]) rest := .of_deeper fun y hy => by
          rcases mem_append.mp hy with hy | hy
          · have := hd y hy
            omega
          · rw [mem_singleton.mp hy]
            exact hlt
        have both := deeper.both hleave
        rwa [append_assoc] at both
      · have rest_ne : rest ≠ [] := by
          rintro rfl
          rw [indent] at heq
          cases heq
        refine .pure ⟨_, rfl, .within (ht.orElse ht') whole hexit.append (by omega) ?_ ?_ (by omega), hless⟩
        · intro y hy
          rcases mem_append.mp hy with hy | hy
          · exact hd y hy
          · rcases mem_cons.mp hy with rfl | hy
            · omega
            · have := hleave.le rest_ne y hy
              omega
        · rw [← indent]
          exact hsettled

/-- **A block is read** up to a line that does not belong to it. -/
theorem block_of_rules (R : BlockReads K r.block m) (F : FollowReads r) : BlockReads K (block w r) (m + 1) := by
  intro st p es f v h hm
  refine Ends.deepen h.calm.level h.scope fun p' hholds => ?_
  have opened : Opened K { st with inBody := true } p es f v := { h with calm := { h.calm with }, scope := h.scope }
  refine Ends.whileMoving (c := fun u => decide (st.level + 1 ≤ u.level))
    (I := BlockState K { st with inBody := true } p es (st.level + 1) v) ?_ ?_ ?_ ?_
  · intro t u _
    refine Leads.get_bind fun s hs => .pure ?_
    have level : s.level = u.level := congrArg View.level hs
    rw [level]
  · intro t u hs hc
    obtain ⟨done, rows, hr, hx, hn, hd, ht, hlen⟩ := hs.level.2 (by simpa using hc)
    exact ⟨⟨ht, done, rows, hr, hd, Nat.le_of_lt_succ hn, hx⟩, hlen⟩
  · intro t u hs hc
    refine .inl ((block_round R F opened rfl (Nat.le_of_lt_succ hm) hs (by simpa using hc)).mono ?_)
    rintro _ v' ⟨t', rfl, hs', hless⟩
    exact ⟨t', rfl, hs', .inl hless⟩
  · exact .start (.inl rfl) h.words (h.calm.atLevel (st.level + 1) st.found true) hholds rfl

/-- **Blocks are read** by the rules, which can be nested as deep as there are words. -/
theorem block_reads (K : Keeper w) (n : Nat) : BlockReads K (block w (rules w n)) n := by
  induction n with
  | zero => exact fun _ _ _ _ _ _ hm => absurd hm (Nat.not_lt_zero _)
  | succ n ih =>
    have follow : FollowReads (rules w (n + 1)) := fun t a k ws hw =>
      follow_reads t hw (endsExpression_lineWord k).1.1.1.1
    exact block_of_rules ih follow

end GdScribe.Read
