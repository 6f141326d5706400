import GdScribe.Proofs.Blocks.Keeper
import GdScribe.Proofs.Reader.Ends

/-!
# Where a reader stands in a script

A reader that leaves a block stands before a line that can belong to any of the blocks around it, and
a branch of an outer `if` can be taken for one of an inner `if`. What is known then is said about the
lines that were read.

* `Path.after`, `nextIndent`, `classNames`: the path after some lines, the indentation of the next
  line, and the classes that are still to come.
* `Calm`: what a reader knows agrees with a stage, and what is still to come is as it should be.

Principal results: `settled_of_leaves` and `Path.inFunction_after`.
-/

namespace GdScribe

open List

/-! ## Lines that were read -/

/-- The path after some lines. -/
def Path.after (p : Path) (rows : List Row) : Path := rows.foldl Path.step p

@[simp] theorem Path.after_cons (p : Path) (r : Row) (rows : List Row) :
    p.after (r :: rows) = (p.step r).after rows := rfl

theorem Path.after_append (p : Path) (rows rows' : List Row) :
    p.after (rows ++ rows') = (p.after rows).after rows' := foldl_append

/-- The indentation of the next line. At the end all blocks are left. -/
def nextIndent : List Row → Nat
  | [] => 0
  | r :: _ => r.indent

/-- The names of inner classes. -/
def classNames (rows : List Row) : List String :=
  rows.filterMap fun r => match r.line with
    | .inner n => some n
    | _ => none

variable {p : Path} {done rows : List Row}

theorem Legal.drop (h : Legal p (done ++ rows)) : Legal (p.after done) rows := by
  induction done generalizing p with
  | nil => exact h
  | cons r done ih => exact ih h.2

variable {n f : Nat}

theorem Path.take_after (h : Legal p (done ++ rows))
    (hn : ∀ r ∈ done, n ≤ r.indent) : (p.after done).take n = p.take n := by
  induction done generalizing p with
  | nil => rfl
  | cons r done ih =>
    have step : (p.step r).take n = p.take n := take_of_take (take_step h.1.reach) (hn r mem_cons_self)
    rw [after_cons, ih h.2 fun r hr => hn r (.tail _ hr), step]

theorem Path.inFunction_after
    (h : Legal p (done ++ rows)) (hn : ∀ r ∈ done, n ≤ r.indent) (hf : f < n) (hp : p.InFunction f) :
    (p.after done).InFunction f :=
  hp.congr (take_after h hn) hf

theorem Path.InFunction.unique {g : Nat} (hf : p.InFunction f) (hg : p.InFunction g) : f = g := by
  have less {f g : Nat} (hf : p.InFunction f) (hg : p.InFunction g) : ¬ f < g := by
    intro h
    obtain ⟨l, hl, hfun⟩ := hf.function
    have hmem : l ∈ p.take g := by
      rw [← getElem?_take_of_lt h] at hl
      exact mem_of_getElem? hl
    have hin := hg.classes l hmem
    cases l with
    | function _ => cases hin
    | _ => cases hfun
  have := less hf hg
  have := less hg hf
  omega

/-! ## Leaving blocks -/

/-- The lines `done` were left for the next one: none of them has a smaller indentation, and only
branches have the same. -/
def Leaves (done rows : List Row) : Prop :=
  ∀ next ∈ rows.head?, ∀ r ∈ done, next.indent ≤ r.indent ∧
    (r.indent = next.indent → r.line.isBranch = true)

/-- The next line is no branch with the indentation `n`. -/
def Settled (n : Nat) (rows : List Row) : Prop := ∀ next ∈ rows.head?, next.indent = n → next.line.isBranch = false

theorem nextIndent_of_head {next : Row} (h : next ∈ rows.head?) : nextIndent rows = next.indent := by
  cases rows with
  | nil => cases h
  | cons r rows => cases h; rfl

theorem Leaves.nil (rows : List Row) : Leaves [] rows := fun _ _ _ hr => nomatch hr

variable {d1 d2 d : List Row}

theorem Leaves.append (h1 : Leaves d1 (d2 ++ rows)) (h2 : Leaves d2 rows)
    (hle : nextIndent rows ≤ nextIndent (d2 ++ rows)) : Leaves (d1 ++ d2) rows := by
  intro next hnext r hr
  rcases mem_append.mp hr with hr | hr
  · obtain ⟨first, hfirst⟩ : ∃ first, first ∈ (d2 ++ rows).head? := by
      cases d2 with
      | nil => exact ⟨next, hnext⟩
      | cons x d2 => exact ⟨x, rfl⟩
    obtain ⟨hind, hbranch⟩ := h1 first hfirst r hr
    rw [nextIndent_of_head hnext, nextIndent_of_head hfirst] at hle
    exact ⟨le_trans hle hind, fun he => hbranch (by omega)⟩
  · exact h2 next hnext r hr

theorem Leaves.branch {r : Row} (hb : r.line.isBranch = true)
    (hle : nextIndent rows ≤ r.indent) : Leaves [r] rows := by
  intro next hnext x hx
  rw [mem_singleton.mp hx]
  exact ⟨nextIndent_of_head hnext ▸ hle, fun _ => hb⟩

theorem Leaves.of_deeper (h : ∀ r ∈ done, nextIndent rows < r.indent) : Leaves done rows := by
  intro next hnext r hr
  have := h r hr
  rw [nextIndent_of_head hnext] at this
  exact ⟨le_of_lt this, fun he => by omega⟩

theorem Leaves.both (h1 : Leaves d1 rows) (h2 : Leaves d2 rows) : Leaves (d1 ++ d2) rows := fun next hnext r hr =>
  (mem_append.mp hr).elim (h1 next hnext r) (h2 next hnext r)

theorem Leaves.le (h : Leaves done rows) (hrows : rows ≠ []) : ∀ r ∈ done, nextIndent rows ≤ r.indent := by
  intro r hr
  cases rows with
  | nil => exact absurd rfl hrows
  | cons next rows => exact (h next rfl r hr).1

theorem Settled.of_lt (h : nextIndent rows < n) : Settled n rows := by
  intro next hnext he
  rw [nextIndent_of_head hnext] at h
  omega

/-- **No branch belongs to a line that has none.** By induction on the lines in between, none of which
can be the first branch. -/
theorem settled_of_leaves (hl : Legal p (d ++ rows))
    (hp : ∃ l, p[n]? = some l ∧ l.branches = false) (h : Leaves d rows) : Settled n rows := by
  rintro next hnext rfl
  obtain ⟨rows, rfl⟩ : ∃ rest, rows = next :: rest := by
    cases rows with
    | nil => cases hnext
    | cons x rows => cases hnext; exact ⟨rows, rfl⟩
  -- a branch finds a line that has branches in its place
  have contra {q : Path} {x : Row} (hx : Fits q x) (hi : x.indent = next.indent)
      (hb : x.line.isBranch = true) : ¬ ∃ l, q[next.indent]? = some l ∧ l.branches = false := by
    rintro ⟨l, hq, hf⟩
    obtain ⟨l', hq', ht⟩ := hx.branch hb
    rw [hi, hq] at hq'
    cases hq'
    exact Bool.false_ne_true (hf.symm.trans ht)
  have all := h next rfl
  clear h
  induction d generalizing p with
  | nil =>
    by_contra hb
    exact contra hl.1 rfl (by simpa using hb) hp
  | cons x d ih =>
    obtain ⟨hle, hbranch⟩ := all x mem_cons_self
    have hlt : next.indent < x.indent := lt_of_le_of_ne hle fun he => contra hl.1 he.symm (hbranch he.symm) hp
    have kept : (p.step x)[next.indent]? = p[next.indent]? := Path.getElem?_of_take (Path.take_step hl.1.reach) hlt
    exact ih (by rw [kept]; exact hp) hl.2 fun y hy => all y (.tail _ hy)

theorem lt_of_branch {next : Row}
    (hl : Legal p (done ++ next :: rows)) (hp : p.InFunction f) (h : Leaves done (next :: rows))
    (hb : next.line.isBranch = true) : f < next.indent := by
  by_contra hle
  obtain ⟨l, hl', hfun⟩ := hp.function
  have none : ∃ l, p[next.indent]? = some l ∧ l.branches = false := by
    rcases lt_or_eq_of_le (not_lt.mp hle) with hlt | heq
    · have hlen : f < p.length := (List.getElem?_eq_some_iff.mp hl').1
      have hsome : p[next.indent]? = some (p.get ⟨next.indent, by omega⟩) := getElem?_eq_getElem _
      refine ⟨_, hsome, ?_⟩
      have hin := hp.classes _ (mem_of_getElem? ((getElem?_take_of_lt hlt).trans hsome))
      revert hin
      cases p.get ⟨next.indent, by omega⟩ <;> simp [Line.isInner, Line.branches]
    · refine ⟨l, heq ▸ hl', ?_⟩
      revert hfun
      cases l <;> simp [Line.isFunction, Line.branches]
  have := settled_of_leaves hl none h next rfl rfl
  exact Bool.false_ne_true (this.symm.trans hb)

/-! ## What a reader knows -/

/-- What a reader knows besides its words and pages. -/
structure Core where
  level : Nat
  classes : List String
  isTool : Bool
  inParens : Bool
  lines : List String
  locals : Table Ty
  table : ClassTable

def View.core {σ : Type} (v : View σ) : Core := ⟨v.level, v.classes, v.isTool, v.inParens, v.lines, v.locals, v.table⟩

/-- The stage after some lines. -/
def Stage.after (st : Stage) (done rows : List Row) : Stage :=
  { st with level := nextIndent rows, found := st.found ++ done.filter Row.speaks }

/-- What a reader knows agrees with a stage, and the lines that are still to come fit after those that
were read. -/
structure Calm (st : Stage) (p : Path) (rows : List Row) (k : Core) : Prop where
  level : k.level = st.level
  classes : k.classes = st.classes
  isTool : k.isTool = false
  outside : k.inParens = false
  quiet : k.lines = []
  locals : k.locals.Tame
  table : k.table.Tame
  known : ∀ c ∈ st.classes, k.table.contains c = true
  named : ∀ c ∈ st.classes, TypeText c
  fresh : ∀ n ∈ classNames rows, k.table.contains n = false
  distinct : (classNames rows).Nodup
  proper : ∀ r ∈ rows, r.line.Proper
  legal : Legal p rows

namespace Calm

variable {st : Stage} {p : Path} {rows : List Row} {k : Core}

theorem classNames_append (rows rows' : List Row) :
    classNames (rows ++ rows') = classNames rows ++ classNames rows' := filterMap_append

theorem drop (h : Calm st p (d ++ rows) k) : Calm st (p.after d) rows k where
  level := h.level
  classes := h.classes
  isTool := h.isTool
  outside := h.outside
  quiet := h.quiet
  locals := h.locals
  table := h.table
  known := h.known
  named := h.named
  fresh n hn := h.fresh n (by rw [classNames_append]; exact mem_append_right _ hn)
  distinct := by
    have := h.distinct
    rw [classNames_append] at this
    exact (nodup_append.mp this).2.1
  proper r hr := h.proper r (mem_append_right _ hr)
  legal := h.legal.drop

variable (h : Calm st p rows k)

include h

theorem atLevel (n : Nat) (found : List Row) (inBody : Bool) :
    Calm { st with level := n, found := found, inBody := inBody } p rows { k with level := n } :=
  { h with level := rfl }

theorem kin {t : ClassTable} (ht : ClassTable.Kin k.table t) : Calm st p rows { k with table := t } where
  level := h.level
  classes := h.classes
  isTool := h.isTool
  outside := h.outside
  quiet := h.quiet
  locals := h.locals
  table := ht.tame h.table
  known c hc := (ht.contains c).trans (h.known c hc)
  named := h.named
  fresh n hn := (ht.contains n).trans (h.fresh n hn)
  distinct := h.distinct
  proper := h.proper
  legal := h.legal

theorem enter {n : String} (hn : k.table.contains n = false)
    (hne : n ∉ classNames rows) (htext : TypeText n) (base : String) :
    Calm { st with classes := n :: st.classes } p rows
      { k with classes := n :: st.classes, table := k.table.declare n base } where
  level := h.level
  classes := rfl
  isTool := h.isTool
  outside := h.outside
  quiet := h.quiet
  locals := h.locals
  table := h.table.declare hn base
  known c hc := by
    rw [ClassTable.contains_declare, Bool.or_eq_true, decide_eq_true_eq]
    rcases mem_cons.mp hc with rfl | hc
    · exact .inl rfl
    · exact .inr (h.known c hc)
  named c hc := by
    rcases mem_cons.mp hc with rfl | hc
    · exact htext
    · exact h.named c hc
  fresh m hm := by
    rw [ClassTable.contains_declare, h.fresh m hm, Bool.or_false, decide_eq_false_iff_not]
    rintro rfl
    exact hne hm
  distinct := h.distinct
  proper := h.proper
  legal := h.legal

theorem leave {c : String} {cs : List String} (hc : st.classes = c :: cs) :
    Calm { st with classes := cs } p rows { k with classes := cs } :=
  { h with
    classes := rfl
    known := fun d hd => h.known d (by rw [hc]; exact mem_cons_of_mem c hd)
    named := fun d hd => h.named d (by rw [hc]; exact mem_cons_of_mem c hd) }

end Calm

end GdScribe
