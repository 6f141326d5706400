import GdScribe.Proofs.Expression.Phrase

/-!
# Scripts made of blocks

The scripts whose block structure is followed: functions and inner classes, with statements that have
no parts but names and blocks.

* `Source`: functions, classes, blocks and statements.
* `Row`: a line of code with its indentation and the number of inner classes around it.
* `Source.rows`: the lines of a script.
* `Legal`: what the lines of a script have in common, from one line to the next: a reader meets the
  lines one by one, and closes several blocks at once.

Main statement: `Source.legal`.
-/

namespace GdScribe

open List

/-- A statement without a block of its own. -/
inductive Simple where
  | pass
  | stop
  | skip
  | result (digits : String)
  | call (name : String)
  deriving DecidableEq, Repr

/-- The line before a block of statements. -/
inductive Head where
  | choice (condition : String)
  | alternative (condition : String)
  | otherwise
  | loop (condition : String)
  | each (name sequence : String)
  deriving DecidableEq, Repr

/-- A line of code. -/
inductive Line where
  | simple (s : Simple)
  | head (h : Head)
  | function (name : String)
  | inner (name : String)
  deriving DecidableEq, Repr

/-- What a part of a script is. -/
inductive Part where
  | statement
  | block
  | branches
  | members

/-- The parts of a script. -/
inductive Source : Part → Type
  | simple (s : Simple) : Source .statement
  | choice (condition : String) (body : Source .block) (rest : Source .branches) : Source .statement
  | loop (condition : String) (body : Source .block) : Source .statement
  | each (name sequence : String) (body : Source .block) : Source .statement
  | last (s : Source .statement) : Source .block
  | more (s : Source .statement) (rest : Source .block) : Source .block
  | noBranch : Source .branches
  | otherwise (body : Source .block) : Source .branches
  | alternative (condition : String) (body : Source .block) (rest : Source .branches) : Source .branches
  | noMember : Source .members
  | function (name : String) (body : Source .block) (rest : Source .members) : Source .members
  | inner (name : String) (body rest : Source .members) : Source .members

/-- A line of code where it stands. -/
structure Row where
  indent : Nat
  /-- The number of inner classes around it. -/
  nesting : Nat
  line : Line
  deriving DecidableEq, Repr

/-- The lines of a part of a script with some indentation and inner classes around it. -/
def Source.rows : {k : Part} → Source k → Nat → Nat → List Row
  | _, .simple s, n, c => [⟨n, c, .simple s⟩]
  | _, .choice cond body rest, n, c =>
    ⟨n, c, .head (.choice cond)⟩ :: body.rows (n + 1) c ++ rest.rows n c
  | _, .loop cond body, n, c => ⟨n, c, .head (.loop cond)⟩ :: body.rows (n + 1) c
  | _, .each x xs body, n, c => ⟨n, c, .head (.each x xs)⟩ :: body.rows (n + 1) c
  | _, .last s, n, c => s.rows n c
  | _, .more s rest, n, c => s.rows n c ++ rest.rows n c
  | _, .noBranch, _, _ => []
  | _, .otherwise body, n, c => ⟨n, c, .head .otherwise⟩ :: body.rows (n + 1) c
  | _, .alternative cond body rest, n, c =>
    ⟨n, c, .head (.alternative cond)⟩ :: body.rows (n + 1) c ++ rest.rows n c
  | _, .noMember, _, _ => []
  | _, .function name body rest, n, c =>
    ⟨n, c, .function name⟩ :: body.rows (n + 1) c ++ rest.rows n c
  | _, .inner name body rest, n, c =>
    ⟨n, c, .inner name⟩ :: body.rows (n + 1) (c + 1) ++ rest.rows n c

namespace Line

/-- Whether a line needs a block after it. -/
def opens : Line → Bool
  | .head _ | .function _ => true
  | _ => false

/-- Whether branches can follow the block after a line. -/
def branches : Line → Bool
  | .head (.choice _) | .head (.alternative _) => true
  | _ => false

/-- Whether a line is a branch of an earlier one. -/
def isBranch : Line → Bool
  | .head (.alternative _) | .head .otherwise => true
  | _ => false

def isSimple : Line → Bool
  | .simple _ => true
  | _ => false

def isInner : Line → Bool
  | .inner _ => true
  | _ => false

def isFunction : Line → Bool
  | .function _ => true
  | _ => false

/-- Whether a line starts a member of a class. -/
def isMember : Line → Bool
  | .function _ | .inner _ => true
  | _ => false

end Line

/-! ## Legal lines -/

/-- The last line with each indentation, as far as no smaller one came after it. -/
abbrev Path := List Line

/-- The line in which a path ends opens a block. -/
def Path.opens (p : Path) : Prop := ∃ l, p.getLast? = some l ∧ l.opens = true

/-- A path leads into a function that `f` inner classes are around. -/
structure Path.InFunction (p : Path) (f : Nat) : Prop where
  classes : ∀ l ∈ p.take f, l.isInner = true
  function : ∃ l, p[f]? = some l ∧ l.isFunction = true

/-- A line fits after others. -/
structure Fits (p : Path) (r : Row) : Prop where
  reach : r.indent ≤ p.length
  opened : p.opens → r.indent = p.length
  simple : (∃ l, p.getLast? = some l ∧ l.isSimple = true) → r.indent < p.length
  branch : r.line.isBranch = true → ∃ l, p[r.indent]? = some l ∧ l.branches = true
  member : r.line.isMember = true → r.nesting = r.indent ∧ ∀ l ∈ p.take r.indent, l.isInner = true
  statement : r.line.isMember = false → r.nesting < r.indent ∧ p.InFunction r.nesting

/-- The path after one more line. -/
def Path.step (p : Path) (r : Row) : Path := p.take r.indent ++ [r.line]

/-- Lines that fit one after the other. -/
def Legal : Path → List Row → Prop
  | p, [] => ¬ p.opens
  | p, r :: rs => Fits p r ∧ Legal (p.step r) rs

namespace Path

variable {p q : Path} {r : Row} {n f : Nat}

theorem length_step (h : r.indent ≤ p.length) : (p.step r).length = r.indent + 1 := by
  simp [step, h]

theorem take_step (h : r.indent ≤ p.length) : (p.step r).take r.indent = p.take r.indent := by
  unfold step
  rw [take_append_of_le_length (by simp [h]), take_take, min_self]

theorem getElem?_step (h : r.indent ≤ p.length) : (p.step r)[r.indent]? = some r.line := by
  have hlen : (p.take r.indent).length = r.indent := by simp [h]
  unfold step
  rw [getElem?_append_right (by omega), hlen, Nat.sub_self]
  rfl

theorem getLast?_step : (p.step r).getLast? = some r.line := by
  unfold step
  rw [getLast?_append]
  rfl

theorem opens_step : (p.step r).opens ↔ r.line.opens = true := by
  unfold opens
  rw [getLast?_step]
  exact ⟨fun ⟨_, hl, ho⟩ => by cases hl; exact ho, fun h => ⟨_, rfl, h⟩⟩

theorem getElem?_of_take (h : q.take n = p.take n) (hf : f < n) : q[f]? = p[f]? := by
  rw [← getElem?_take_of_lt hf, h, getElem?_take_of_lt hf]

theorem take_of_take (h : q.take n = p.take n) (hf : f ≤ n) : q.take f = p.take f := by
  have := congrArg (take f) h
  rwa [take_take, take_take, Nat.min_eq_left hf] at this

theorem InFunction.congr (h : q.take n = p.take n) (hf : f < n) (hp : p.InFunction f) : q.InFunction f := by
  refine ⟨?_, ?_⟩
  · rw [take_of_take h (le_of_lt hf)]
    exact hp.classes
  · rw [getElem?_of_take h hf]
    exact hp.function

/-- After a path, a line with the indentation `n` can come. -/
structure Ready (p : Path) (n : Nat) : Prop where
  reach : n ≤ p.length
  opened : p.opens → n = p.length
  simple : (∃ l, p.getLast? = some l ∧ l.isSimple = true) → n < p.length

theorem Ready.of_deeper (h : p.Ready (n + 1)) (ho : ¬ p.opens) : p.Ready n :=
  ⟨Nat.le_of_succ_le h.reach, fun h => absurd h ho, fun _ => h.reach⟩

theorem Ready.of_step (h : r.indent ≤ p.length) (ho : r.line.opens = false) : (p.step r).Ready r.indent := by
  have hlen := length_step h
  refine ⟨by omega, fun ho' => ?_, fun _ => by omega⟩
  rw [opens_step, ho] at ho'
  cases ho'

theorem Ready.of_open (h : r.indent ≤ p.length) (ho : r.line.isSimple = false) : (p.step r).Ready (r.indent + 1) := by
  refine ⟨by rw [length_step h], fun _ => (length_step h).symm, ?_⟩
  rintro ⟨l, hl, hs⟩
  rw [getLast?_step] at hl
  cases hl
  rw [ho] at hs
  cases hs

end Path

/-- Where a part of a script can stand. -/
def Source.Stands : Part → Path → Nat → Nat → Prop
  | .statement, p, n, c | .block, p, n, c => p.Ready n ∧ c < n ∧ p.InFunction c
  | .branches, p, n, c => p.Ready n ∧ ¬ p.opens ∧ c < n ∧ p.InFunction c ∧ ∃ l, p[n]? = some l ∧ l.branches = true
  | .members, p, n, c => p.Ready n ∧ ¬ p.opens ∧ c = n ∧ ∀ l ∈ p.take n, l.isInner = true

section legal

variable {p : Path} {n c : Nat} {rest : List Row}

/-- What follows a part fits after whatever the part leaves. -/
def Resumes (p : Path) (n : Nat) (rest : List Row) : Prop :=
  ∀ q : Path, q.take n = p.take n → q.Ready n → ¬ q.opens → Legal q rest

variable {l : Line}

/-- A line of a statement or a branch that opens no block of its own function. -/
theorem fits_statement (hr : p.Ready n) (hc : c < n) (hf : p.InFunction c) (hm : l.isMember = false)
    (hb : l.isBranch = true → ∃ l, p[n]? = some l ∧ l.branches = true) : Fits p ⟨n, c, l⟩ :=
  ⟨hr.reach, hr.opened, hr.simple, hb, fun h => absurd (hm.symm.trans h) Bool.false_ne_true, fun _ => ⟨hc, hf⟩⟩

theorem fits_member (hr : p.Ready n) (hi : ∀ l ∈ p.take n, l.isInner = true)
    (hm : l.isMember = true) (hb : l.isBranch = false) : Fits p ⟨n, n, l⟩ :=
  ⟨hr.reach, hr.opened, hr.simple, fun h => absurd (hb.symm.trans h) Bool.false_ne_true,
    fun _ => ⟨rfl, hi⟩, fun h => absurd (h.symm.trans hm) Bool.false_ne_true⟩

/-- A line with a block after it: what the block resumes with comes after both. -/
theorem legal_opening {body : List Row} (h : Fits p ⟨n, c, l⟩)
    (hbody : ∀ rest, Resumes (p.step ⟨n, c, l⟩) (n + 1) rest → Legal (p.step ⟨n, c, l⟩) (body ++ rest))
    (hrest : ∀ q : Path, q.take n = p.take n → q[n]? = some l → q.Ready n → ¬ q.opens → Legal q rest) :
    Legal p (⟨n, c, l⟩ :: body ++ rest) := by
  refine ⟨h, hbody rest fun q hq hready hopen => ?_⟩
  have hlen : (p.step ⟨n, c, l⟩).length = n + 1 := Path.length_step h.reach
  refine hrest q ?_ ?_ (hready.of_deeper hopen) hopen
  · exact (Path.take_of_take hq (Nat.le_succ n)).trans (Path.take_step h.reach)
  · rw [Path.getElem?_of_take hq (Nat.lt_succ_self n)]
    exact Path.getElem?_step h.reach

/-- A block of statements can start after a line that opens one in a function. -/
theorem stands_block (hr : p.Ready n) (hc : c < n) (hf : p.InFunction c)
    (hs : l.isSimple = false) : Source.Stands .block (p.step ⟨n, c, l⟩) (n + 1) c := by
  have reach : n ≤ p.length := hr.reach
  exact ⟨Path.Ready.of_open reach hs, Nat.lt_succ_of_lt hc,
    hf.congr (Path.take_step reach) hc⟩

/-- **The lines of a part are legal** where the part can stand, if what follows can go on there. By
recursion on the part, with what follows quantified. -/
theorem Source.legal_rows : ∀ {k : Part} (s : Source k) (p : Path) (n c : Nat) (rest : List Row),
    Stands k p n c → Resumes p n rest → Legal p (s.rows n c ++ rest)
  | _, .simple s, p, n, c, rest, ⟨hr, hc, hf⟩, hrest => by
    have fits : Fits p ⟨n, c, .simple s⟩ := fits_statement hr hc hf rfl nofun
    exact ⟨fits, hrest _ (Path.take_step fits.reach) (.of_step fits.reach rfl)
      fun ho => Bool.false_ne_true (Path.opens_step.mp ho)⟩
  | _, .choice cond body branches, p, n, c, rest, ⟨hr, hc, hf⟩, hrest => by
    rw [rows, append_assoc]
    refine legal_opening (fits_statement hr hc hf rfl nofun)
      (fun rest => body.legal_rows _ _ c rest (stands_block hr hc hf rfl)) fun q hq hl hready ho => ?_
    refine branches.legal_rows q n c rest ⟨hready, ho, hc, hf.congr hq hc, _, hl, rfl⟩ ?_
    exact fun q' hq' => hrest q' (hq'.trans hq)
  | _, .loop cond body, p, n, c, rest, ⟨hr, hc, hf⟩, hrest
  | _, .each x xs body, p, n, c, rest, ⟨hr, hc, hf⟩, hrest =>
    legal_opening (fits_statement hr hc hf rfl nofun)
      (fun rest => body.legal_rows _ _ c rest (stands_block hr hc hf rfl)) fun q hq _ => hrest q hq
  | _, .last s, p, n, c, rest, h, hrest => s.legal_rows p n c rest h hrest
  | _, .more s others, p, n, c, rest, ⟨hr, hc, hf⟩, hrest => by
    rw [rows, append_assoc]
    refine s.legal_rows p n c _ ⟨hr, hc, hf⟩ fun q hq hready ho => ?_
    exact others.legal_rows q n c rest ⟨hready, hc, hf.congr hq hc⟩ fun q' hq' => hrest q' (hq'.trans hq)
  | _, .noBranch, p, n, c, rest, ⟨hr, ho, _⟩, hrest => hrest p rfl hr ho
  | _, .otherwise body, p, n, c, rest, ⟨hr, ho, hc, hf, hb⟩, hrest =>
    legal_opening (fits_statement hr hc hf rfl fun _ => hb)
      (fun rest => body.legal_rows _ _ c rest (stands_block hr hc hf rfl)) fun q hq _ => hrest q hq
  | _, .alternative cond body branches, p, n, c, rest, ⟨hr, ho, hc, hf, hb⟩, hrest => by
    rw [rows, append_assoc]
    refine legal_opening (fits_statement hr hc hf rfl fun _ => hb)
      (fun rest => body.legal_rows _ _ c rest (stands_block hr hc hf rfl)) fun q hq hl hready ho => ?_
    refine branches.legal_rows q n c rest ⟨hready, ho, hc, hf.congr hq hc, _, hl, rfl⟩ ?_
    exact fun q' hq' => hrest q' (hq'.trans hq)
  | _, .noMember, p, n, c, rest, ⟨hr, ho, _⟩, hrest => hrest p rfl hr ho
  | _, .function name body others, p, n, c, rest, ⟨hr, ho, hc, hi⟩, hrest => by
    subst hc
    rw [rows, append_assoc]
    refine legal_opening (fits_member hr hi rfl rfl) (fun rest => body.legal_rows _ _ c rest ?_)
      fun q hq hl hready ho => ?_
    · have reach : c ≤ p.length := hr.reach
      refine ⟨.of_open reach rfl, Nat.lt_succ_self c, ?_, ?_⟩
      · rw [Path.take_step (r := ⟨c, c, .function name⟩) reach]
        exact hi
      · exact ⟨_, Path.getElem?_step reach, rfl⟩
    · refine others.legal_rows q c c rest ⟨hready, ho, rfl, ?_⟩ fun q' hq' => hrest q' (hq'.trans hq)
      rw [hq]
      exact hi
  | _, .inner name body others, p, n, c, rest, ⟨hr, ho, hc, hi⟩, hrest => by
    subst hc
    rw [rows, append_assoc]
    have reach : c ≤ p.length := hr.reach
    refine legal_opening (fits_member hr hi rfl rfl) (fun rest => body.legal_rows _ _ _ rest ?_)
      fun q hq hl hready ho => ?_
    · refine ⟨.of_open reach rfl,
        fun ho => Bool.false_ne_true (Path.opens_step.mp ho), rfl, ?_⟩
      intro l hl
      have hall : (p.step ⟨c, c, .inner name⟩).take (c + 1) = p.take c ++ [.inner name] := by
        rw [take_of_length_le (by rw [Path.length_step reach])]
        rfl
      rw [hall] at hl
      rcases mem_append.mp hl with hl | hl
      · exact hi l hl
      · rw [mem_singleton.mp hl]
        rfl
    · refine others.legal_rows q c c rest ⟨hready, ho, rfl, ?_⟩ fun q' hq' => hrest q' (hq'.trans hq)
      rw [hq]
      exact hi

theorem Source.legal (s : Source .members) : Legal [] (s.rows 0 0) := by
  have none : ¬ Path.opens [] := by
    rintro ⟨_, hl, _⟩
    cases hl
  have h := s.legal_rows [] 0 0 [] ⟨⟨le_refl 0, fun h => absurd h none, by
    rintro ⟨_, hl, _⟩
    cases hl⟩, none, rfl, nofun⟩ fun q _ _ ho => ho
  rwa [append_nil] at h

end legal

end GdScribe
