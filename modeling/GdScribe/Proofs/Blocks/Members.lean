import GdScribe.Proofs.Blocks.Nested

/-!
# Reading functions and inner classes

A reader goes through a member of a class, and what it asks of a target keeps the blocks.

* `InClass`: a reader stands at the start of a class.
* `ClassReads`: a class is read up to a line that does not belong to it.

Principal results: `method_reads` and `inner_reads` for the two kinds of members, and
`classMember_reads`.
-/

namespace GdScribe.Read

open List

variable {σ : Type} {w : Writer σ} (K : Keeper w)

/-- A reader stands before a member of a class. -/
structure Outside (st : Stage) (p : Path) (x : Row) (rows : List Row) (v : View σ) : Prop where
  calm : Calm st p (x :: rows) v.core
  holds : K.Holds st v.table v.pages
  inBody : st.inBody = false
  level : x.indent = st.level
  classes : st.classes.length = st.level + 1
  inner : ∀ l ∈ p.take x.indent, l.isInner = true

/-- Of the lines `rows` some are read, up to one that belongs to no block or class inside. -/
def Completes (st : Stage) (p : Path) (rows : List Row) (v : View σ) : Prop :=
  ∃ done rest, rows = done ++ rest ∧ (∀ next ∈ rest.head?, ∀ r ∈ done, next.indent ≤ r.indent) ∧
    nextIndent rest ≤ st.level ∧ Exits K st p done rest v

variable {K} {r : Rules σ} {st : Stage} {p : Path} {x : Row} {es : List Entry} {m : Nat} {v : View σ}

theorem Completes.cons {done rest : List Row} (hx : x.indent = st.level)
    (hle : ∀ next ∈ rest.head?, ∀ r ∈ done, next.indent ≤ r.indent) (hnext : nextIndent rest ≤ st.level)
    (h : Exits K st p (x :: done) rest v) : Completes K st p (x :: (done ++ rest)) v := by
  refine ⟨x :: done, rest, rfl, fun next hn y hy => ?_, hnext, h⟩
  rcases mem_cons.mp hy with rfl | hy
  · rw [← nextIndent_of_head hn, hx]
    exact hnext
  · exact hle next hn y hy

/-! ## Functions -/

theorem Outside.isMember (h : Outside K st p x (codeRows es) v) : x.line.isMember = true := by
  by_contra hm
  have statement := h.calm.legal.1.statement (by simpa using hm)
  obtain ⟨l, hl, hfun⟩ := statement.2.function
  have hin := h.inner l (mem_of_getElem? ((getElem?_take_of_lt statement.1).trans hl))
  cases l with
  | function _ => cases hin
  | _ => cases hfun

variable {n : String} {cs : List String} {P : σ → Prop} {inner : ReadM σ Unit}

theorem Outside.opened (h : Outside K st p x (codeRows es) v) (hx : x.line = .function n) :
    Answers w .openPage v.table v.pages fun p' =>
      Opened K st (p.step x) es st.level { v with words := tailWords es, pages := p' } := by
  have reach : x.indent ≤ p.length := h.calm.legal.1.reach
  obtain ⟨p', hserve, hscope⟩ := K.body h.holds h.inBody h.classes
  refine ⟨p', hserve, ?_⟩
  have classes : ∀ l ∈ (p.step x).take st.level, l.isInner = true := by
    rw [← h.level, Path.take_step reach]
    exact h.inner
  exact
    { words := rfl
      calm := h.calm.drop (d := [x])
      scope := hscope
      opens := Path.opens_step.mpr (by rw [hx]; rfl)
      length := by rw [Path.length_step reach, h.level]
      classes := h.classes
      function := ⟨classes, x.line, by rw [← h.level]; exact Path.getElem?_step reach, by rw [hx]; rfl⟩
      inside := le_refl _ }

theorem paramDefinitions_none {ws : List Word} {x : Word} (hw : v.words = mark ')' :: x :: ws) :
    Leads (paramDefinitions r ")") v { v with words := x :: ws } (· = {}) := by
  have closed : Leads (do return !(← expect ")")) v { v with words := x :: ws } (· = false) :=
    (Leads.expect_hit hw).bindEq (.pure rfl)
  exact Rounds.whileMoving (.done rfl closed)

theorem record_leads {c : String} (hc : v.classes = c :: cs) (e : ClassEntry) :
    Leads (record e) v { v with table := v.table.update c e.put } := by
  refine Leads.get_bind fun _ _ => (Leads.note _).bind fun _ _ => ?_
  refine Leads.change (fun s hs => ?_) (fun _ => rfl) rfl
  have name : s.className = c := by
    have classes : s.classes = c :: cs := (congrArg View.classes hs).trans hc
    rw [Reader.className, classes]
    rfl
  rw [← hs, Reader.updateClass, name]
  rfl

theorem Ends.onPage {α β : Type} {act : ReadM σ α} {f : α × String → ReadM σ β} {Q : β → View σ → Prop}
    (h : Ends (do Read.ask w .openPage; let a ← act; let text ← takePage w; f (a, text)) v Q) :
    Ends (onPage w act >>= f) v Q := by
  simpa only [Read.onPage, bind_assoc, pure_bind] using h

/-- Once the body of a function is complete, its statements are those of the class. -/
theorem Stage.after_body {done rest : List Row} (h : st.inBody = false) (hx : x.speaks = false) :
    { Stage.after { st with inBody := true } done rest with inBody := false } = st.after (x :: done) rest := by
  unfold Stage.after
  rw [filter_cons_of_neg (by rw [hx]; decide)]
  cases st
  cases h
  rfl

/-- **A function is read** with its body. -/
theorem method_reads (R : BlockReads K (block w r) m) (h : Outside K st p x (codeRows es) v)
    (hx : x.line = .function n)
    (hw : v.words = textWord n :: mark '(' :: mark ')' :: mark ':' :: tailWords es) (hm : v.words.length < m) :
    Ends (method w r false) v fun _ v' =>
      Completes K st p (x :: codeRows es) v' ∧ v'.words.length < v.words.length := by
  have free : FreeName n := by
    have proper := h.calm.proper x mem_cons_self
    rw [hx] at proper
    exact proper
  obtain ⟨c, cs, hclasses⟩ : ∃ c cs, st.classes = c :: cs := exists_cons_of_length_eq_add_one h.classes
  have nesting : cs.length = st.level := by
    have := h.classes
    rw [hclasses, length_cons] at this
    omega
  refine (Leads.consume hw).thenEnds <| (Leads.expect_hit rfl).thenEnds ?_
  refine (paramDefinitions_none rfl).thenEnds ?_
  have untyped : Leads (typeAfter "->") { v with words := mark ':' :: tailWords es }
      { v with words := mark ':' :: tailWords es } (· = none) := .miss rfl nofun (.pure rfl)
  refine untyped.thenEnds <| (colon_reads rfl).thenEnds ?_
  have fewer : (tailWords es).length + 4 = v.words.length := by rw [hw]; rfl
  refine Ends.onPage (Ends.ask (h.opened hx) fun p0 hopen => ?_)
  refine (R hopen (show (tailWords es).length < m by omega)).bind ?_
  rintro t u ⟨⟨ht, done, rest, hrows, hleave, hnext, hexit⟩, hless⟩
  have hless' : u.words.length < (tailWords es).length := hless
  have current : u.classes = c :: cs := hexit.calm.classes.trans hclasses
  obtain ⟨code, p1, hpage, hmethod⟩ := K.method hexit.holds rfl hclasses
    (show nextIndent rest ≤ cs.length by rw [nesting]; exact hnext)
    (hexit.calm.known c (by rw [show Stage.classes _ = _ from hclasses]; exact .head _)) free ht
  refine (Leads.takePage hpage).thenEnds ?_
  refine (record_leads (v := { u with pages := p1 }) current _).bindEnds fun _ _ => ?_
  refine Ends.get_bind fun s _ => ?_
  obtain ⟨t2, p2, hserve, hkin, hholds⟩ := hmethod (!false && s.parentClass.methods.contains n)
  refine (Leads.ask hserve).ends.mono ?_
  rintro _ _ ⟨-, rfl⟩
  have silent : x.speaks = false := speaks_of_opens (by rw [hx]; rfl)
  rw [hrows]
  refine ⟨.cons h.level (fun next hn y hy => (hleave next hn y hy).1) hnext ⟨hexit.ahead, ?_, ?_⟩,
    show u.words.length < v.words.length by omega⟩
  · rw [← Stage.after_body h.inBody silent]
    exact { hexit.calm.kin hkin with }
  · rw [← Stage.after_body h.inBody silent]
    exact hholds

/-! ## Inner classes -/

theorem startClass_leads {base : String} {isMain : Bool} (ht : v.isTool = false)
    (h : Answers w (.enterClass n) (v.table.declare n base) v.pages fun p' =>
      Answers w (.defineClass n base false isMain) (v.table.declare n base) p' P) :
    ∃ p', Leads (startClass w n base isMain) v
      { v with classes := n :: v.classes, table := v.table.declare n base, pages := p' } ∧ P p' := by
  obtain ⟨p1, henter, p2, hdefine, hp⟩ := h
  refine ⟨p2, ?_, hp⟩
  have started : Leads (modify fun s => { s with
      classes := n :: s.classes
      desk := { s.desk with classes := s.desk.classes.declare n base } } : ReadM σ PUnit) v
      { v with classes := n :: v.classes, table := v.table.declare n base } :=
    Leads.change (fun s hs => by rw [← hs]; rfl) (fun _ => rfl) rfl
  refine (Leads.note _).bind fun _ _ => started.bind fun _ _ => ?_
  refine Leads.bind (Q := fun _ => True) (b := { v with
    classes := n :: v.classes, table := v.table.declare n base, pages := p1 }) ?_ fun _ _ => ?_
  · refine Leads.get_bind fun s hs => ?_
    have name : s.className = n := by
      rw [Reader.className, show s.classes = n :: v.classes from congrArg View.classes hs]
      rfl
    rw [name]
    exact Leads.ask henter
  · refine Leads.get_bind fun s hs => ?_
    have tool : s.isTool = false := (congrArg View.isTool hs).trans ht
    rw [tool]
    exact Leads.ask hdefine

theorem endClass_leads {c d : String} (hv : v.classes = c :: d :: cs) {t : ClassTable} {p1 : σ}
    (hend : Serves (w.serve (.endClass c)) v.table v.pages t p1)
    (henter : Answers w (.enterClass d) t p1 P) :
    ∃ p', Leads (endClass w) v { v with classes := d :: cs, table := t, pages := p' } ∧ P p' := by
  obtain ⟨p2, henter, hp⟩ := henter
  refine ⟨p2, Leads.get_bind fun s hs => ?_, hp⟩
  have name : s.className = c := by
    rw [Reader.className, show s.classes = c :: d :: cs from (congrArg View.classes hs).trans hv]
    rfl
  rw [name]
  refine (Leads.ask hend).bind fun _ _ => (Leads.note _).bind fun _ _ => ?_
  have left : Leads (modify fun s => { s with classes := s.enclosing } : ReadM σ PUnit)
      { v with table := t, pages := p1 } { v with classes := d :: cs, table := t, pages := p1 } := by
    refine Leads.change (fun s hs => ?_) (fun _ => rfl) rfl
    have classes : s.classes = c :: d :: cs := (congrArg View.classes hs).trans hv
    have outer : s.enclosing = d :: cs := by
      rw [Reader.enclosing, classes]
      exact if_pos (by simp)
    rw [outer]
    exact congrArg (fun u : View σ => { u with classes := d :: cs }) hs
  refine left.bind fun _ _ => Leads.get_bind fun s hs => ?_
  have name : s.className = d := by
    rw [Reader.className, show s.classes = d :: cs from congrArg View.classes hs]
    rfl
  rw [name]
  exact Leads.ask (a := { v with classes := d :: cs, table := t, pages := p1 }) henter

variable (K)

/-- A reader stands at the start of a class: behind the line that opens it, or before the first member
of a script. -/
structure InClass (st : Stage) (p : Path) (rows : List Row) (v : View σ) : Prop where
  due : (0 < st.level ∧ ∃ es, rows = codeRows es ∧ v.words = tailWords es) ∨
    (nextIndent rows = st.level ∧ Ahead rows v.words)
  calm : Calm st p rows v.core
  holds : K.Holds st v.table v.pages
  inBody : st.inBody = false
  classes : st.classes.length = st.level + 1
  length : p.length = st.level
  inner : ∀ l ∈ p, l.isInner = true

/-- A class of fewer than `m` words is read. -/
def ClassReads (x : ReadM σ Unit) (m : Nat) : Prop :=
  ∀ ⦃st : Stage⦄ ⦃p : Path⦄ ⦃rows : List Row⦄ ⦃v : View σ⦄, InClass K st p rows v →
    v.words.length < m → Ends x v fun _ v' => v'.words.length ≤ v.words.length ∧
      ∃ done rest, rows = done ++ rest ∧ (∀ next ∈ rest.head?, ∀ r ∈ done, next.indent ≤ r.indent) ∧
        (rest = [] ∨ nextIndent rest < st.level) ∧ Exits K st p done rest v'

variable {K}

theorem Outside.inClass (h : Outside K st p x (codeRows es) v) (hx : x.line = .inner n) :
    Answers w (.enterClass n) (v.table.declare n "Object") v.pages fun p' =>
      Answers w (.defineClass n "Object" false false) (v.table.declare n "Object") p' fun p' =>
        InClass K { st with level := st.level + 1, classes := n :: st.classes } (p.step x) (codeRows es)
          { v with words := tailWords es, level := st.level + 1, classes := n :: st.classes
                   table := v.table.declare n "Object", pages := p' } := by
  have reach : x.indent ≤ p.length := h.calm.legal.1.reach
  have free : FreeName n := by
    have proper := h.calm.proper x mem_cons_self
    rw [hx] at proper
    exact proper
  have names : classNames (x :: codeRows es) = n :: classNames (codeRows es) := by
    unfold classNames
    rw [filterMap_cons, hx]
  have new : v.table.contains n = false := h.calm.fresh n (by rw [names]; exact mem_cons_self)
  have distinct := h.calm.distinct
  rw [names, nodup_cons] at distinct
  obtain ⟨p1, henter, p2, hdefine, hholds⟩ := K.inner h.holds h.inBody h.classes free new h.calm.known
  refine ⟨p1, henter, p2, hdefine, ?_⟩
  have calm := ((h.calm.drop (d := [x])).enter new distinct.1 free.typeText "Object").atLevel
    (st.level + 1) st.found st.inBody
  exact
    { due := .inl ⟨Nat.succ_pos _, es, rfl, rfl⟩
      calm := calm
      holds := hholds
      inBody := h.inBody
      classes := congrArg (· + 1) h.classes
      length := by rw [Path.length_step reach, h.level]
      inner := fun l hl => by
        rcases mem_append.mp hl with hl | hl
        · exact h.inner l hl
        · rw [mem_singleton.mp hl, hx]
          rfl }

/-- **An inner class is read** with its members. -/
theorem inner_reads (C : ClassReads K inner m) (h : Outside K st p x (codeRows es) v) (hx : x.line = .inner n)
    (hw : v.words = textWord n :: mark ':' :: tailWords es) (hm : v.words.length < m) :
    Ends (innerClass w inner) v fun _ v' =>
      Completes K st p (x :: codeRows es) v' ∧ v'.words.length < v.words.length := by
  refine (Leads.consume hw).thenEnds ?_
  have plain : Leads (nameAfter "extends" "Object") { v with words := mark ':' :: tailWords es }
      { v with words := mark ':' :: tailWords es } (· = "Object") := .miss rfl nofun (.pure rfl)
  refine plain.thenEnds ?_
  obtain ⟨p0, hstart, hin⟩ := startClass_leads (v := { v with words := mark ':' :: tailWords es })
    h.calm.isTool (h.inClass hx)
  refine hstart.bindEnds fun _ _ => (colon_reads rfl).thenEnds ?_
  refine Leads.goDeeper.bindEnds fun _ _ => ?_
  have fewer : (tailWords es).length + 2 = v.words.length := by rw [hw]; rfl
  rw [show v.level = st.level from h.calm.level, show v.classes = st.classes from h.calm.classes]
  refine (C hin (show (tailWords es).length < m by omega)).bind ?_
  rintro _ u ⟨hlen, done, rest, hrows, hle, hrest, hexit⟩
  have hlen' : u.words.length ≤ (tailWords es).length := hlen
  have hnext : nextIndent rest ≤ st.level := by
    rcases hrest with rfl | hlt
    · exact Nat.zero_le _
    · exact Nat.le_of_lt_succ hlt
  obtain ⟨d, ds, hclasses⟩ : ∃ d ds, st.classes = d :: ds := exists_cons_of_length_eq_add_one h.classes
  have nesting : ds.length = st.level := by
    have := h.classes
    rw [hclasses, length_cons] at this
    omega
  have both : n :: st.classes = n :: d :: ds := by rw [hclasses]
  obtain ⟨t', p1, hend, hkin, henter⟩ := K.leave hexit.holds h.inBody both
    (show nextIndent rest ≤ ds.length by rw [nesting]; exact hnext) hexit.calm.known
  obtain ⟨p2, hleft, hholds⟩ := endClass_leads (hexit.calm.classes.trans both) hend henter
  refine hleft.ends.mono ?_
  rintro _ _ ⟨-, rfl⟩
  have silent : x.speaks = false := by rw [Row.speaks, hx]
  have same : { Stage.after { st with level := st.level + 1, classes := n :: st.classes } done rest with
      classes := d :: ds } = st.after (x :: done) rest := by
    unfold Stage.after
    rw [filter_cons_of_neg (by rw [silent]; decide), ← hclasses]
  rw [hrows]
  refine ⟨.cons h.level hle hnext ⟨hexit.ahead, ?_, ?_⟩, show u.words.length < v.words.length by omega⟩
  · rw [← same]
    exact (hexit.calm.kin hkin).leave both
  · rw [← same]
    exact hholds

/-! ## Members -/

theorem Completes.endLine {rows : List Row} (h : Completes K st p rows v) :
    Ends (do endLine w; return true) v fun b v' =>
      b = true ∧ Completes K st p rows v' ∧ v'.words.length = v.words.length := by
  obtain ⟨done, rest, hrows, hle, hnext, hexit⟩ := h
  obtain ⟨p', hend, hholds⟩ := endLine_ahead K hexit.ahead hexit.holds
  refine (hend.ends fun _ _ hv => by rw [hv]).bind ?_
  rintro _ _ rfl
  exact .pure ⟨rfl, ⟨done, rest, hrows, hle, hnext, hexit.ahead, hexit.calm, hholds⟩, rfl⟩

/-- **A member is read.** -/
theorem classMember_reads (R : BlockReads K (block w r) m) {k : Nat}
    (C : ClassReads K inner k) (h : Outside K st p x (codeRows es) v)
    (hw : v.words = x.line.words ++ tailWords es) (hm : v.words.length < m) (hk : v.words.length ≤ k) :
    Ends (classMember w r inner) v fun b v' => b = true ∧ Completes K st p (x :: codeRows es) v' ∧
      v'.words.length < v.words.length := by
  have moved (ws : List Word) : Outside K st p x (codeRows es) { v with words := ws } :=
    { h with }
  have member := h.isMember
  refine Ends.get_bind fun _ _ => (Leads.note _).bindEnds fun _ _ => ?_
  have read : (∃ k y ws, v.words = (k, y) :: ws ∧ y ≠ "pass" ∧ y ≠ "static") ∧ Ends (item w r false inner) v
      fun _ v' => Completes K st p (x :: codeRows es) v' ∧ v'.words.length < v.words.length := by
    match hx : x.line with
    | .simple _ | .head _ => rw [hx] at member; cases member
    | .function n =>
      rw [hx] at hw
      refine ⟨⟨_, _, _, hw, by decide, by decide⟩, .miss hw nofun <| .miss hw (by decide) <| .hit hw ?_⟩
      refine (method_reads R (moved _) hx rfl (by rw [hw] at hm; exact Nat.lt_of_succ_lt hm)).mono ?_
      rintro _ u ⟨hu, hless⟩
      exact ⟨hu, by rw [hw]; exact Nat.lt_succ_of_lt hless⟩
    | .inner n =>
      rw [hx] at hw
      refine ⟨⟨_, _, _, hw, by decide, by decide⟩, .hit hw ?_⟩
      refine (inner_reads C (moved _) hx rfl (by rw [hw] at hk; exact hk)).mono ?_
      rintro _ u ⟨hu, hless⟩
      exact ⟨hu, by rw [hw]; exact Nat.lt_succ_of_lt hless⟩
  obtain ⟨⟨k, y, ws, hws, pass, static⟩, read⟩ := read
  refine .miss hws pass <| (Leads.expect_miss hws static).thenEnds <| read.bind ?_
  rintro _ u ⟨hu, hless⟩
  refine hu.endLine.mono ?_
  rintro b v' ⟨hb, hv, hlen⟩
  exact ⟨hb, hv, by rw [hlen]; exact hless⟩

end GdScribe.Read
