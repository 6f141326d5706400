import GdScribe.Proofs.Blocks.CSharp
import GdScribe.Proofs.Blocks.Drafts
import GdScribe.Proofs.Reader.Course
import GdScribe.Proofs.Target.Manner

/-!
# Choices between cases and the depth of the written text

A reader counts levels by the indentation of lines, and a target counts the scopes that are open. A
choice between cases raises the level of the reader; a target opens a scope for it only if it writes
the choice as a jump.

* `Scoped`: the scopes that a target opens and closes are braces on its page.

Principal result: `choice_neutral_iff`.
-/

namespace GdScribe

open List
open Target (Settings)

variable {σ τ α β : Type}

/-! ## What requests do to the number of open scopes -/

/-- An action that ends well changes the number of open scopes by `n`. -/
def Shifts (n : Int) (x : PageM τ α) : Prop := ∀ d a d', x d = .ok a d' → d'.pages.level = d.pages.level + n

namespace Shifts

variable {x : PageM τ α} {f : α → PageM τ β}

theorem bind {m n : Int} (hx : Shifts m x) (hf : ∀ a, Shifts n (f a)) : Shifts (m + n) (x >>= f) := by
  intro d b d' h
  obtain ⟨a, d1, h1, h2⟩ := Read.bind_eq_ok h
  have first := hx d a d1 h1
  have second := hf a d1 b d' h2
  omega

theorem after {n : Int} (hx : Shifts 0 x) (hf : ∀ a, Shifts n (f a)) : Shifts n (x >>= f) := by
  have h := hx.bind hf
  rwa [Int.zero_add] at h

theorem shift (n : Int) : Shifts n (Page.shift n : PageM τ Unit) := by
  intro d a d' h
  cases h
  rfl

theorem of_same (h : ∀ d, ∃ a d', x d = .ok a d' ∧ d'.pages.level = d.pages.level) : Shifts 0 x := by
  intro d b d' hd
  obtain ⟨a, d1, hx, same⟩ := h d
  rw [hx] at hd
  cases hd
  omega

theorem openPage : Shifts 0 (Page.openPage : PageM τ Unit) := of_same fun _ => ⟨_, _, rfl, rfl⟩

theorem takePage : Shifts 0 (Page.takePage : PageM τ String) := of_same fun _ => ⟨_, _, rfl, rfl⟩

end Shifts

/-- The manner of actions that end well only with as many open scopes as before. -/
def sameScopes (τ : Type) : Manner (Pages τ) :=
  .ending (fun d d' => d'.pages.level = d.pages.level) (fun _ => rfl) fun h h' => h'.trans h

theorem sameScopes_allows {x : PageM τ α} : (sameScopes τ).Allows x ↔ Shifts 0 x := by
  refine ⟨fun h d a d' hx => (Manner.Allows.ok h hx).trans (Int.add_zero _).symm, fun h d => ?_⟩
  cases hx : x d with
  | ok a d' => exact (h d a d' hx).trans (Int.add_zero _)
  | error e d' => trivial

/-- What is written in a scope, as a manner of targets. -/
def PageManner.sameScopes {owns : τ → τ → Prop} (owns_refl : ∀ o, owns o o) : PageManner τ owns where
  toManner := GdScribe.sameScopes τ
  owns_refl := owns_refl
  adds _ _ _ _ h := h
  note _ _ := rfl
  onPage h := sameScopes_allows.mpr <|
    Shifts.openPage.after fun _ => (sameScopes_allows.mp h).after fun _ => .takePage
  scopes := False
  shift h := h.elim
  deeper h := sameScopes_allows.mpr <|
    (Shifts.shift 1).bind fun _ => (sameScopes_allows.mp h).after fun _ => Shifts.shift (-1)

theorem Request.inBody_rests {q : Request} (hq : q.inBody = true) {P R : Prop} :
    q.inBlock = true ∧ (q.turns = true → P) ∧ (q.scopes = true → R) := by
  cases q <;> first | (cases hq; done) | exact ⟨rfl, nofun, nofun⟩

/-- The number of braces that a text leaves open. -/
def openBraces (text : String) : Int := text.toList.count '\x7b' - text.toList.count '\x7d'

theorem count_indented {c : Char} (line : c ≠ '\n') (tab : c ≠ '\t') (level : Int) (text : String) :
    (Page.indented level text).toList.count c = text.toList.count c := by
  rw [Outline.toList_indented]
  induction text.toList with
  | nil => rfl
  | cons x xs ih =>
    rw [flatMap_cons, count_append, ih, count_cons]
    by_cases hx : x = '\n'
    · simp [hx, count_replicate, line.symm, tab.symm]
    · simp [hx, count_cons, Nat.add_comm]

theorem openBraces_put (page : String) (level : Int) (text : String) :
    openBraces (page ++ Page.indented level text) = openBraces page + openBraces text := by
  simp only [openBraces, String.toList_append, count_append]
  rw [count_indented (by decide) (by decide), count_indented (by decide) (by decide)]
  omega

/-- As many scopes are opened as braces on the page, namely `n`. -/
def Braces (n : Int) (p p' : Pages τ) : Prop :=
  p'.level = p.level + n ∧ openBraces p'.page = openBraces p.page + n

theorem braces_of_serves {x : PageM τ Unit} {d d' : Desk (Pages τ)} {a : Unit} (h : x d = .ok a d') {p' : Pages τ}
    (serves : Read.Serves x d.classes d.pages d.classes p') {l : Int} {text : String}
    (level : p'.level = d.pages.level + openBraces text) (page : p'.page = d.pages.page ++ Page.indented l text) :
    Braces (openBraces text) d.pages d'.pages := by
  obtain ⟨_, _, served, -, -, pages, -⟩ := serves d rfl rfl
  cases h.symm.trans served
  rw [pages]
  exact ⟨level, by rw [page, openBraces_put]⟩

/-- What the requests of a block do to the number of open scopes: **scopes are braces**, apart from the indentation
of cases. A guarded target closes only scopes that are open. -/
structure Scoped (w : Writer (Pages τ)) (guarded : Prop) : Prop where
  body : ∀ q, q.inBody = true → Shifts 0 (w.serve q)
  openPage : Shifts 0 (w.serve .openPage)
  matchHead : ∀ byJump, Shifts 0 (w.serve (.matchHead byJump))
  takePage : Shifts 0 w.takePage
  indent : Shifts 1 (w.serve .indent)
  dedent : Shifts (-1) (w.serve .dedent)
  openScope : ∀ d a d', w.serve .openScope d = .ok a d' → Braces 1 d.pages d'.pages
  matchSubject : ∀ byJump d a d', w.serve (.matchSubject byJump) d = .ok a d' →
    Braces (if byJump = true then 1 else 0) d.pages d'.pages
  closeScope : ∀ d a d', w.serve .closeScope d = .ok a d' → (guarded → 0 < d.pages.level) →
    Braces (-1) d.pages d'.pages

theorem Dialect.matchSubject_braces {d : Dialect τ} {e e' : Desk (Pages τ)} {a : Unit} {byJump : Bool}
    (put : ∀ text, openBraces text = 0 → text.toList.all (· == '\n') = false →
      ∀ e a e', d.put text e = .ok a e' → Braces 0 e.pages e'.pages)
    (scope : ∀ e a e', d.openScope e = .ok a e' → Braces 1 e.pages e'.pages)
    (h : d.matchSubject byJump e = .ok a e') : Braces (if byJump = true then 1 else 0) e.pages e'.pages := by
  cases byJump with
  | true =>
    obtain ⟨_, e1, h1, h2⟩ := Read.bind_eq_ok h
    obtain ⟨level, page⟩ := put ")" rfl rfl _ _ _ h1
    obtain ⟨level', page'⟩ := scope _ _ _ h2
    rw [if_pos rfl]
    exact ⟨by omega, by omega⟩
  | false => exact put _ rfl rfl _ _ _ h

namespace CSharp

/-- What C# writes in a scope. -/
def sameScopes : PageManner State Freely := .sameScopes fun _ => trivial

theorem writer_scoped (s : Settings) : Scoped (writer s) False where
  body q hq := by
    obtain ⟨-, turns, scopes⟩ := Request.inBody_rests hq
    exact sameScopes_allows.mp (serve_allowed sameScopes s q turns scopes)
  openPage := .openPage
  matchHead byJump := sameScopes_allows.mp <|
    (dialect_allowed sameScopes s).matchHead byJump fun _ => sameScopes_allows.mpr .openPage
  takePage := .takePage
  indent := .shift 1
  dedent := .shift (-1)
  openScope _ _ _ h := braces_of_serves h openScope_serves rfl rfl
  matchSubject _ _ _ _ := Dialect.matchSubject_braces
    (fun _ h0 _ _ _ _ h => h0 ▸ braces_of_serves h (put_serves _) (by rw [h0, Int.add_zero]) rfl)
    fun _ _ _ h => braces_of_serves h openScope_serves rfl rfl
  closeScope _ _ _ h _ := braces_of_serves h closeScope_serves rfl rfl

end CSharp

namespace CPlusPlus

/-- What C++ writes in a scope. -/
def sameScopes : PageManner State SameClass := .sameScopes SameClass.refl

theorem writer_scoped (s : Settings) : Scoped (writer s) True where
  body q hq := by
    obtain ⟨inBlock, turns, scopes⟩ := Request.inBody_rests hq
    exact sameScopes_allows.mp (serve_inBlock_allowed sameScopes s q inBlock (fun _ _ => .outside _) turns scopes)
  openPage := .openPage
  matchHead byJump := sameScopes_allows.mp <|
    (dialect_allowed sameScopes s).matchHead byJump fun _ => sameScopes_allows.mpr .openPage
  takePage := .takePage
  indent := .shift 1
  dedent := .shift (-1)
  openScope _ _ _ h := braces_of_serves h openScope_serves rfl rfl
  matchSubject _ _ _ _ := Dialect.matchSubject_braces
    (fun _ h0 hn _ _ _ h => h0 ▸ braces_of_serves h (put_serves (.inl hn)) (by rw [h0, Int.add_zero]) rfl)
    fun _ _ _ h => braces_of_serves h openScope_serves rfl rfl
  closeScope _ _ _ h hd := braces_of_serves h (closeScope_serves (Int.ne_of_gt (hd trivial))) rfl rfl

end CPlusPlus

/-! ## Levels and scopes -/

/-- The number of scopes that the target of a reader has open. -/
def Reader.depth (s : Reader (Pages τ)) : Int := s.desk.pages.level

/-- The number of levels for which no scope is open. -/
def Reader.gap (s : Reader (Pages τ)) : Int := s.level - s.depth

/-- Whether a request starts the cases of a choice that is written as a chain of comparisons. -/
def Request.startsChain : Request → Bool
  | .matchSubject byJump => !byJump
  | _ => false

/-- How many choices are written as chains of comparisons. -/
def chains (qs : List Request) : Nat := qs.countP Request.startsChain

namespace Read

/-- What was asked and noted on the way from one state to another, and what it did to the gap. For a
guarded target, the lines on the way must not leave scopes that are not open. -/
def Widens (guarded : Prop) (s s' : Reader (Pages τ)) (qs : List Request) (ns : List Note) : Prop :=
  s'.asked = qs ++ s.asked ∧ s'.history = ns ++ s.history ∧
    ((guarded → ∀ i : Nat, .line i ∈ ns → s.gap + chains qs ≤ i) → s'.gap = s.gap + chains qs)

/-- The gap between the levels of a reader and the scopes of its target grows by one with each choice
that is written as a chain of comparisons. -/
def gapCourse (τ : Type) (guarded : Prop) : Course (Pages τ) where
  ok s s' := ∃ qs ns, Widens guarded s s' qs ns
  fault _ _ _ := True

section gap

variable {guarded : Prop} {w : Writer (Pages τ)} {s s' : Reader (Pages τ)}

theorem Widens.same (ha : s'.asked = s.asked) (hh : s'.history = s.history)
    (hg : s'.gap = s.gap) : (gapCourse τ guarded).ok s s' := by
  refine ⟨[], [], ha, hh, fun _ => ?_⟩
  simp [hg, chains]

/-- The gap after two ways is that after the first, and what the second adds: the lines of both are
deep enough for the choices of both. -/
theorem Widens.trans {s1 s2 : Reader (Pages τ)} {qs qs' : List Request} {ns ns' : List Note}
    (h : Widens guarded s s1 qs ns) (h' : Widens guarded s1 s2 qs' ns') :
    Widens guarded s s2 (qs' ++ qs) (ns' ++ ns) := by
  obtain ⟨ha, hh, hg⟩ := h
  obtain ⟨ha', hh', hg'⟩ := h'
  have total : chains (qs' ++ qs) = chains qs' + chains qs := countP_append
  refine ⟨by rw [ha', ha, append_assoc], by rw [hh', hh, append_assoc], fun lines => ?_⟩
  have first : s1.gap = s.gap + chains qs := by
    refine hg fun g i hm => ?_
    have := lines g i (mem_append_right ns' hm)
    omega
  have second : s2.gap = s1.gap + chains qs' := by
    refine hg' fun g i hm => ?_
    have := lines g i (mem_append_left ns hm)
    omega
  omega

variable {q : Request} {x : ReadM (Pages τ) α}

theorem Widens.ask {n : Int} (hq : Shifts n (w.serve q)) {a : Unit} (h : ask w q s = .ok a s') :
    s'.asked = q :: s.asked ∧ s'.history = s.history ∧ s'.level = s.level ∧ s'.depth = s.depth + n := by
  obtain ⟨d, hd, rfl⟩ := ask_eq_ok h
  exact ⟨rfl, rfl, rfl, hq _ _ _ hd⟩

theorem closeScopes_depth (H : Scoped w guarded) (n : Nat) :
    ∀ {s s' : Reader (Pages τ)} {a : Unit}, closeScopes w n s = .ok a s' →
      s'.asked = replicate n .closeScope ++ s.asked ∧ s'.history = s.history ∧
        s'.level = s.level ∧ ((guarded → n ≤ s.depth) → s'.depth = s.depth - n) := by
  induction n with
  | zero =>
    intro s s' a h
    cases h
    simp
  | succ n ih =>
    intro s s' a h
    obtain ⟨b, s1, h1, h2⟩ := bind_eq_ok h
    obtain ⟨d, hd, rfl⟩ := ask_eq_ok h1
    obtain ⟨ha, hh, hl, hdepth⟩ := ih h2
    refine ⟨?_, hh, hl, fun hn => ?_⟩
    · rw [ha, replicate_succ']
      simp
    · have one : d.pages.level = s.depth - 1 := by
        refine (H.closeScope _ _ _ hd fun g => ?_).1
        have := hn g
        change 0 < s.depth
        omega
      have rest : s'.depth = d.pages.level - n := by
        refine hdepth fun g => ?_
        have := hn g
        change (n : Int) ≤ d.pages.level
        omega
      omega

theorem keeps_of_ok (h : ∀ s a s', x s = .ok a s' → ∃ qs ns, Widens guarded s s' qs ns) :
    Keeps (gapCourse τ guarded) x := by
  intro s
  cases hx : x s with
  | ok a s' => exact h s a s' hx
  | error e s' => trivial

theorem ok_of_keeps (h : Keeps (gapCourse τ guarded) x)
    {a : α} (hx : x s = .ok a s') : ∃ qs ns, Widens guarded s s' qs ns := by
  have := h s
  rw [hx] at this
  exact this

theorem leaveScopes_widens (H : Scoped w guarded) (indent : Option Nat) :
    Keeps (gapCourse τ guarded) (leaveScopes w indent) := by
  refine keeps_of_ok fun s a s' h => ?_
  obtain ⟨_, s1, h1, h2⟩ := bind_eq_ok h
  cases indent with
  | none =>
    cases h1
    change (do closeScopes w (s.level - s.level); if s.level < s.level then _ : ReadM _ Unit) s = _ at h2
    rw [Nat.sub_self, if_neg (Nat.lt_irrefl _)] at h2
    cases h2
    exact Widens.same rfl rfl rfl
  | some i =>
    cases h1
    change (do
      closeScopes w (s.level - i)
      if i < s.level then modify fun s => { s with level := i } : ReadM _ Unit)
        { s with history := .line i :: s.history } = _ at h2
    by_cases hi : i < s.level
    · rw [if_pos hi] at h2
      obtain ⟨_, s2, hclose, hset⟩ := bind_eq_ok h2
      cases hset
      obtain ⟨ha, hh, -, hdepth⟩ := closeScopes_depth H _ hclose
      have none : chains (replicate (s.level - i) .closeScope) = 0 := by
        simp [chains, Request.startsChain]
      refine ⟨replicate (s.level - i) .closeScope, [.line i], ha, hh, fun lines => ?_⟩
      have left : s2.depth = s.depth - (s.level - i : Nat) := by
        refine hdepth fun g => ?_
        have deep := lines g i mem_cons_self
        unfold Reader.gap at deep
        change ((s.level - i : Nat) : Int) ≤ s.depth
        omega
      unfold Reader.gap
      change (i : Int) - s2.depth = _
      omega
    · rw [if_neg hi, Nat.sub_eq_zero_of_le (Nat.le_of_not_lt hi)] at h2
      cases h2
      refine ⟨[], [.line i], rfl, rfl, fun _ => ?_⟩
      change s.gap = s.gap + (0 : Nat)
      omega

theorem Widens.note {n : Note} (ha : s'.asked = s.asked)
    (hh : s'.history = n :: s.history) (hg : s'.gap = s.gap) : (gapCourse τ guarded).ok s s' := by
  refine ⟨[], [n], ha, hh, fun _ => ?_⟩
  simp [hg, chains]

theorem ask_widens (hs : Shifts 0 (w.serve q)) (hq : q.startsChain = false) :
    Keeps (gapCourse τ guarded) (ask w q) := by
  refine keeps_of_ok fun s a s' h => ⟨[q], [], ?_⟩
  obtain ⟨ha, hh, hl, hd⟩ := Widens.ask hs h
  have none : chains [q] = 0 := by simp [chains, hq]
  refine ⟨ha, hh, fun _ => ?_⟩
  unfold Reader.gap
  omega

theorem askBody_widens (H : Scoped w guarded) (q : Request) (hq : q.inBody = true) :
    Keeps (gapCourse τ guarded) (ask w q) :=
  ask_widens (H.body q hq) (by cases q <;> first | rfl | cases hq)

theorem takePage_widens (H : Scoped w guarded) : Keeps (gapCourse τ guarded) (takePage w) := by
  refine keeps_of_ok fun s a s' h => ?_
  obtain ⟨d, hd, rfl⟩ := atDesk_eq_ok h
  have same := H.takePage _ _ _ hd
  refine Widens.same rfl rfl ?_
  unfold Reader.gap Reader.depth
  dsimp only
  omega

theorem gapCourse_joins : (gapCourse τ guarded).Joins where
  refl s := Widens.same rfl rfl rfl
  trans := by
    rintro a b c ⟨qs, ns, h⟩ ⟨qs', ns', h'⟩
    exact ⟨qs' ++ qs, ns' ++ ns, h.trans h'⟩
  fail _ _ _ := trivial
  trans_fault _ _ := trivial

/-- What is written in brackets is written one level deeper, and read at the same level. -/
theorem bracketed_widens (H : Scoped w guarded) {items : ReadM (Pages τ) Unit}
    (h : Keeps (gapCourse τ guarded) items) : Keeps (gapCourse τ guarded) (bracketed w items) := by
  refine keeps_of_ok fun s a s' hs => ?_
  obtain ⟨_, s1, h1, hs⟩ := bind_eq_ok hs
  obtain ⟨p, s5, hpage, hs⟩ := bind_eq_ok hs
  obtain ⟨_, _, h6, hs⟩ := bind_eq_ok hs
  cases hs
  have inside := gapCourse_joins.onPage (ask_widens H.openPage rfl) h (takePage_widens H)
  obtain ⟨qs, ns, hai, hhi, hgi⟩ := ok_of_keeps inside hpage
  obtain ⟨ha, hh, hl, hd⟩ := Widens.ask H.indent h1
  obtain ⟨ha', hh', hl', hd'⟩ := Widens.ask H.dedent h6
  have count : chains (.dedent :: (qs ++ [.indent])) = chains qs := by
    simp [chains, Request.startsChain]
  refine ⟨.dedent :: (qs ++ [.indent]), ns, ?_, ?_, fun lines => ?_⟩
  · rw [ha', hai, ha]
    simp
  · rw [hh', hhi, hh]
  · rw [count] at lines ⊢
    have deeper : s1.gap = s.gap - 1 := by
      unfold Reader.gap
      omega
    have inner : s5.gap = s1.gap + chains qs := by
      refine hgi fun g i hm => ?_
      have := lines g i hm
      omega
    have back : s'.gap = s5.gap + 1 := by
      unfold Reader.gap
      omega
    omega

/-- A new level comes with a new scope, but for a chain of comparisons. -/
theorem deepen_widens (H : Scoped w guarded) (q : Request) (hq : q.deepens = true) :
    Keeps (gapCourse τ guarded) (deepen w q) := by
  refine keeps_of_ok fun s a s' h => ⟨[q], [.deeper], ?_⟩
  obtain ⟨_, s1, h1, h⟩ := bind_eq_ok h
  cases h1
  obtain ⟨_, _, h2, h⟩ := bind_eq_ok h
  cases h
  have opened : Shifts (1 - chains [q]) (w.serve q) := by
    cases q with
    | openScope => exact fun _ _ _ h => (H.openScope _ _ _ h).1
    | matchSubject byJump => cases byJump <;> exact fun _ _ _ h => (H.matchSubject _ _ _ _ h).1
    | _ => cases hq
  obtain ⟨ha, hh, hl, hd⟩ := Widens.ask opened h2
  refine ⟨ha, hh, fun _ => ?_⟩
  have level : s'.level = s.level + 1 := hl
  have depth : s'.depth = s.depth + (1 - chains [q]) := hd
  unfold Reader.gap
  omega

theorem next_widens (s : Reader (Pages τ)) : (gapCourse τ guarded).ok s s.next := by
  unfold Reader.next
  split <;> exact Widens.same rfl rfl rfl

theorem gapCourse_laws (H : Scoped w guarded) : (gapCourse τ guarded).Laws w where
  toJoins := gapCourse_joins
  next := next_widens
  log _ _ := Widens.same rfl rfl rfl
  strings _ _ := Widens.same rfl rfl rfl
  inParens _ _ := Widens.same rfl rfl rfl
  ask := askBody_widens H
  onPage h := gapCourse_joins.onPage (ask_widens H.openPage rfl) h (takePage_widens H)
  choiceHead byJump _ := gapCourse_joins.choiceHead next_widens (ask_widens (H.matchHead byJump) rfl)
    (askBody_widens H _ rfl) (deepen_widens H _ rfl) (takePage_widens H)
  bracketed := bracketed_widens H
  deepen := deepen_widens H
  leaveScopes := leaveScopes_widens H
  learn _ _ _ := Widens.note rfl rfl rfl
  closure _ _ := Widens.note rfl rfl rfl
  use _ _ := Widens.note rfl rfl rfl

/-- What a choice between cases does to the depth at which its target writes: `qs` is what was asked on
the way, which starts with the subject, and `ns` what was noted. -/
def ChoiceScopes (w : Writer (Pages τ)) (guarded : Prop) (n : Nat) (s s' : Reader (Pages τ)) : Prop :=
  ∃ qs ns, s'.asked = qs ++ s.asked ∧ s'.history = ns ++ s.history ∧
    (∃ t e u, expression w (rules w n) s = .ok (t, e) u ∧ .matchSubject (jumps t) ∈ qs) ∧
    ((guarded → ∀ i : Nat, .line i ∈ ns → s.gap + chains qs ≤ i) →
      s'.depth = s.depth + (s'.level - s.level) - chains qs ∧
        (s'.level = s.level → (s'.depth = s.depth ↔ .matchSubject false ∉ qs)))

theorem chains_eq_zero_iff (qs : List Request) : chains qs = 0 ↔ .matchSubject false ∉ qs := by
  unfold chains
  rw [countP_eq_zero]
  constructor
  · intro h hq
    exact h _ hq rfl
  · intro h q hq
    cases q with
    | matchSubject byJump =>
      cases byJump with
      | true => simp [Request.startsChain]
      | false => exact absurd hq h
    | _ => simp [Request.startsChain]

/-- A choice asks for its subject, and widens the gap by the chains in it. -/
theorem choiceScopes_of_scoped (H : Scoped w guarded) {n : Nat} {t : Ty}
    (h : matchStatement w (rules w n) s = .ok t s') : ChoiceScopes w guarded n s s' := by
  have L := gapCourse_laws H
  have K := RulesKeep.rules L n
  obtain ⟨qs, ns, ha, hh, hgap⟩ := ok_of_keeps (K.matchStatement L.logic) h
  obtain ⟨⟨subject, e⟩, s1, h1, h⟩ := bind_eq_ok h
  obtain ⟨_, s2, h2, h⟩ := bind_eq_ok h
  obtain ⟨_, s3, h3, h⟩ := bind_eq_ok h
  obtain ⟨_, s4, h4, h⟩ := bind_eq_ok h
  obtain ⟨level, s5, h5, h⟩ := bind_eq_ok h
  obtain ⟨comparison, s6, h6, h⟩ := bind_eq_ok h
  have before : ∃ qs1, s5.asked = .matchSubject (jumps subject) :: (qs1 ++ s.asked) := by
    obtain ⟨qs1, _, a1, -, -⟩ := ok_of_keeps (K.expressed L.logic) h1
    obtain ⟨a2, -⟩ := Widens.ask (H.matchHead _) h2
    obtain ⟨qs3, _, a3, -, -⟩ := ok_of_keeps (L.ask _ rfl) h3
    obtain ⟨qs4, _, a4, -, -⟩ := ok_of_keeps (Keeps.expect L.toMoves ":") h4
    obtain ⟨_, _, hd, h5⟩ := bind_eq_ok h5
    cases hd
    obtain ⟨_, _, hq, h5⟩ := bind_eq_ok h5
    cases h5
    obtain ⟨d, -, rfl⟩ := ask_eq_ok hq
    refine ⟨qs4 ++ (qs3 ++ .matchHead (jumps subject) :: qs1), ?_⟩
    simp [a4, a3, a2, a1]
  obtain ⟨qs1, hbefore⟩ := before
  obtain ⟨qs2, _, hafter, -, -⟩ : ∃ qs ns, Widens guarded s5 s' qs ns := by
    have compared : Keeps (gapCourse τ guarded) (caseComparison w (jumps subject)) :=
      .ite (.pure L _) (takePage_widens H)
    obtain ⟨_, _, a⟩ := ok_of_keeps compared h6
    obtain ⟨_, _, b⟩ := ok_of_keeps (K.caseRounds L.logic (jumps subject) level rfl) h
    exact ⟨_, _, a.trans b⟩
  have member : .matchSubject (jumps subject) ∈ qs := by
    have both : qs ++ s.asked = (qs2 ++ .matchSubject (jumps subject) :: qs1) ++ s.asked := by
      rw [← ha, hafter, hbefore]
      simp
    rw [append_cancel_right both]
    simp
  refine ⟨qs, ns, ha, hh, ⟨subject, e, s1, h1, member⟩, fun lines => ?_⟩
  have wider := hgap lines
  have depth : s'.depth = s.depth + (s'.level - s.level) - chains qs := by
    unfold Reader.gap at wider
    omega
  rw [← chains_eq_zero_iff]
  omega

end gap

/-- **When a choice between cases is neutral.** After a choice, the next line that stands at its level
is written at its depth if and only if no choice in it, itself included, is written as a chain of
comparisons, because its subject is known to be neither an integer nor a text nor a float; each of these
takes away one scope, that is one brace (`Scoped`). For C++, which closes no more scopes than
it has open, the lines of the choice must be deep enough for that. -/
theorem choice_neutral_iff (s : Settings) (n : Nat) : (∀ (r r' : Reader (Pages CSharp.State)) (t : Ty),
      matchStatement (CSharp.writer s) (rules (CSharp.writer s) n) r = .ok t r' →
        ChoiceScopes (CSharp.writer s) False n r r') ∧
    ∀ (r r' : Reader (Pages CPlusPlus.State)) (t : Ty),
      matchStatement (CPlusPlus.writer s) (rules (CPlusPlus.writer s) n) r = .ok t r' →
        ChoiceScopes (CPlusPlus.writer s) True n r r' :=
  ⟨fun _ _ _ h => choiceScopes_of_scoped (CSharp.writer_scoped s) h,
    fun _ _ _ h => choiceScopes_of_scoped (CPlusPlus.writer_scoped s) h⟩

/-- A reader at the start of a text, in the body of a function. -/
def inBody (pages : σ) (text : String) : Reader σ := { readerAt [] ⟨{}, #[], pages⟩ text with level := 1 }

/-- A choice by an integer, with a choice by an integer in one of its cases, leaves the depth alone, and all
braces on the page are closed. -/
theorem choice_neutral_iff_jumps :
    let text := "1:\n\t\t1:\n\t\t\tmatch 2:\n\t\t\t\t_:\n\t\t\t\t\tb()\n\t\t_:\n\t\t\tpass\n\tg()"
    (∃ t r', matchStatement (CSharp.writer {}) (rules (CSharp.writer {}) 40)
        (inBody { CSharp.start with level := 2 } text) = .ok t r' ∧ r'.level = 1 ∧ r'.depth = 2 ∧
      openBraces r'.desk.pages.page = 0 ∧
      ChoiceScopes (CSharp.writer {}) False 40 (inBody { CSharp.start with level := 2 } text) r') ∧
    ∃ t r', matchStatement (CPlusPlus.writer {}) (rules (CPlusPlus.writer {}) 40)
        (inBody { CPlusPlus.start "S" with level := 1 } text) = .ok t r' ∧ r'.level = 1 ∧ r'.depth = 1 ∧
      openBraces r'.desk.pages.page = 0 ∧
      ChoiceScopes (CPlusPlus.writer {}) True 40 (inBody { CPlusPlus.start "S" with level := 1 } text) r' := by
  intro text
  have sharp : endsIn (fun r => decide (r.level = 1 ∧ r.depth = 2 ∧ openBraces r.desk.pages.page = 0))
      (matchStatement (CSharp.writer {}) (rules (CSharp.writer {}) 40)
        (inBody { CSharp.start with level := 2 } text)) = true := by decide +kernel
  have plus : endsIn (fun r => decide (r.level = 1 ∧ r.depth = 1 ∧ openBraces r.desk.pages.page = 0))
      (matchStatement (CPlusPlus.writer {}) (rules (CPlusPlus.writer {}) 40)
        (inBody { CPlusPlus.start "S" with level := 1 } text)) = true := by decide +kernel
  constructor
  · obtain ⟨t, r', h, ends⟩ := exists_of_endsIn sharp
    obtain ⟨level, depth, braces⟩ := of_decide_eq_true ends
    exact ⟨t, r', h, level, depth, braces, (choice_neutral_iff {} 40).1 _ r' t h⟩
  · obtain ⟨t, r', h, ends⟩ := exists_of_endsIn plus
    obtain ⟨level, depth, braces⟩ := of_decide_eq_true ends
    exact ⟨t, r', h, level, depth, braces, (choice_neutral_iff {} 40).2 _ r' t h⟩

/-- After a choice whose subject has no known type, the statement behind it is written outside the
function. -/
theorem chain_takes_scope :
    let text := "func f():\n\tmatch x:\n\t\t1:\n\t\t\tb()\n\tg()"
    Text.occursIn "\n\t\tif(x == 1)\n\t\t\x7b\n\t\t\tB();\n\t\t\x7d\n\t\x7d\n\tG();"
        (run (CSharp.writer {}) "S" text ⟨{}, #[], CSharp.start⟩).desk.pages.page = true ∧
      Text.occursIn "\n\tif(x == 1)\n\t\x7b\n\t\tb();\n\t\x7d\n\x7dg()"
        (run (CPlusPlus.writer {}) "S" text ⟨{}, #[], CPlusPlus.start "S"⟩).desk.pages.page = true := by
  decide +kernel

end Read

end GdScribe
