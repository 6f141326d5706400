import GdScribe.Proofs.Reader.Moves

/-!
# What a reader sees

Where a reader goes is decided by the kinds and values of the tokens from the one in view on, and by
what it has learned so far. A `View` holds just that, without positions, logs and counters.

* `View`: the words that are left, the lines that are printed by the time they are all passed, and
  the rest of what is known.
* `Serves`: the same for requests to a target.

Principal results: `Leads.bind`, `Leads.expect_hit`, `Leads.expect_miss`, `Leads.consume` and
`Leads.endLine_here` — the rules by which longer actions are followed through a script.
-/

namespace GdScribe

open List

/-- A token without its place. -/
abbrev Word := TokenKind × String

def Token.word (t : Token) : Word := (t.kind, t.value)

/-- The line that an event prints, if it prints one. -/
def Event.printed? : Event → Option String
  | .printed line => some line
  | _ => none

variable {σ : Type}

/-- The lines that were printed, in order. -/
def Desk.printedLines (d : Desk σ) : List String := d.log.toList.filterMap Event.printed?

/-- What a reader sees and knows. -/
structure View (σ : Type) where
  /-- The word in view and the words that follow. -/
  words : List Word
  /-- The lines that are printed by the time that all words are passed. -/
  lines : List String
  level : Nat
  isTool : Bool
  classes : List String
  locals : Table Ty
  inParens : Bool
  table : ClassTable
  pages : σ

/-- The view after one move: past the last word stands the end. -/
def View.next (v : View σ) : View σ :=
  { v with words := match v.words with
    | _ :: w :: ws => w :: ws
    | _ => [(.eof, "EOF")] }

/-- What a reader sees and knows. -/
def Reader.view (s : Reader σ) : View σ where
  words := s.current.word :: s.ahead.map fun l => l.token.word
  lines := s.desk.log.toList.filterMap Event.printed? ++ s.ahead.flatMap (·.notices) ++ s.closing
  level := s.level
  isTool := s.isTool
  classes := s.classes
  locals := s.locals
  inParens := s.inParens
  table := s.desk.classes
  pages := s.desk.pages

namespace Read

variable {σ α β : Type}

theorem printed_print (d : Desk σ) (lines : List String) : (d.print lines).log.toList.filterMap Event.printed? =
      d.log.toList.filterMap Event.printed? ++ lines := by
  have log : (d.print lines).log.toList = d.log.toList ++ lines.map .printed := by simp [Desk.print]
  rw [log, filterMap_append, filterMap_map]
  exact congrArg _ filterMap_some

theorem printed_note (log : Array Event) {e : Event} (h : e.printed? = none) :
    (log.push e).toList.filterMap Event.printed? = log.toList.filterMap Event.printed? := by
  simp [h]

/-- One move changes the view as it should: the notices of the token that comes into view are among
the lines already. -/
theorem view_next (s : Reader σ) : s.next.view = s.view.next := by
  unfold Reader.next Reader.view
  cases s.ahead with
  | nil =>
    simp only [printed_print, flatMap_nil, append_nil]
    rfl
  | cons l ls =>
    simp only [printed_print, flatMap_cons, append_assoc]
    rfl

/-- An action takes every reader with the view `a` to one with the view `b` and a result with `Q`. For
each word that is gone, the reader has moved at least once. -/
def Leads (x : ReadM σ α) (a b : View σ) (Q : α → Prop := fun _ => True) : Prop :=
  ∀ s, s.view = a → ∃ r s', x s = .ok r s' ∧ Q r ∧ s'.view = b ∧ s.moves + a.words.length ≤ s'.moves + b.words.length

/-- A request takes every desk with these classes and pages to one with others. -/
def Serves (x : DeskM σ α) (t : ClassTable) (p : σ) (t' : ClassTable) (p' : σ)
    (Q : α → Prop := fun _ => True) : Prop :=
  ∀ d, d.classes = t → d.pages = p → ∃ r d', x d = .ok r d' ∧ Q r ∧ d'.classes = t' ∧
    d'.pages = p' ∧ d'.log.toList.filterMap Event.printed? = d.log.toList.filterMap Event.printed?

/-- A reader before some words in a class. -/
def atWords (table : ClassTable) (name : String) (words : List Word) : Reader Unit :=
  let token (w : Word) : Token := ⟨w.1, w.2, 0, 0, 0⟩
  { current := token (words.headD (.eof, "EOF")), ahead := words.tail.map (⟨[], token ·⟩), closing := [],
    classes := [name], desk := ⟨table, #[], ()⟩ }

namespace Leads

variable {a b c : View σ} {Q : α → Prop} {R : β → Prop}

theorem pure {r : α} (h : Q r) : Leads (pure r : ReadM σ α) a a Q :=
  fun s hs => ⟨r, s, rfl, h, hs, Nat.le_refl _⟩

variable {P : α → Prop} {x y : ReadM σ α} {l : List Word} {p : σ} {t : ClassTable} {wr : Writer σ}

theorem mono (h : Leads x a b P) (hpq : ∀ r, P r → Q r) : Leads x a b Q := fun s hs =>
  have ⟨r, s', hx, hp, hv, hm⟩ := h s hs
  ⟨r, s', hx, hpq r hp, hv, hm⟩

variable {f : α → ReadM σ β}

/-- **Actions in a row.** -/
theorem bind (hx : Leads x a b Q) (hf : ∀ r, Q r → Leads (f r) b c R) : Leads (x >>= f) a c R := by
  intro s hs
  obtain ⟨r, s', hr, hq, hv, hm⟩ := hx s hs
  obtain ⟨r', s'', hr', hq', hv', hm'⟩ := hf r hq s' hv
  refine ⟨r', s'', ?_, hq', hv', by omega⟩
  rw [bind_ok hr, hr']

theorem bindEq {r : α} (hx : Leads x a b (· = r)) (hf : Leads (f r) b c R) : Leads (x >>= f) a c R :=
  hx.bind fun _ h => h ▸ hf

theorem exists_reader (h : a.words ≠ []) : ∃ s : Reader σ, s.view = a := by
  obtain ⟨words, lines, level, isTool, classes, locals, inParens, table, pages⟩ := a
  obtain ⟨w, ws, rfl⟩ := exists_cons_of_ne_nil h
  let token (w : Word) : Token := ⟨w.1, w.2, 0, 0, 0⟩
  let s : Reader σ :=
    { current := token w, ahead := ws.map (⟨[], token ·⟩), closing := lines, level, isTool, classes, locals, inParens,
      desk := ⟨table, #[], pages⟩ }
  refine ⟨s, ?_⟩
  simp only [s, Reader.view, Token.word, token, map_map, Function.comp_def, flatMap_map]
  simp

/-- Where an action leads is one place, and what it gives has all that is known of it. -/
theorem both (h : Leads x a b Q) (h' : Leads x a c P) (ha : a.words ≠ []) : b = c ∧ ∃ r, Q r ∧ P r := by
  obtain ⟨s, hs⟩ := exists_reader ha
  obtain ⟨r, t, hr, hq, ht, -⟩ := h s hs
  obtain ⟨r', t', hr', hp, ht', -⟩ := h' s hs
  rw [hr] at hr'
  cases hr'
  exact ⟨ht.symm.trans ht', r, hq, hp⟩

theorem get_bind {f : Reader σ → ReadM σ β} (h : ∀ s, s.view = a → Leads (f s) a c R) : Leads (get >>= f) a c R :=
  fun s hs => h s hs s hs

theorem ite_pos {p : Prop} [Decidable p] (hp : p) (h : Leads x a b Q) : Leads (if p then x else y) a b Q := by
  rw [if_pos hp]
  exact h

theorem ite_neg {p : Prop} [Decidable p] (hp : ¬ p) (h : Leads y a b Q) : Leads (if p then x else y) a b Q := by
  rw [if_neg hp]
  exact h

theorem change {f : Reader σ → Reader σ} (h : ∀ s, s.view = a → (f s).view = b)
    (hm : ∀ s, (f s).moves = s.moves) (hw : b.words = a.words) : Leads (modify f : ReadM σ PUnit) a b :=
  fun s hs => ⟨⟨⟩, f s, rfl, trivial, h s hs, by
    have := hm s
    rw [hw]
    omega⟩

theorem setParens (b : Bool) : Leads (modify fun s => { s with inParens := b } : ReadM σ PUnit) a
    { a with inParens := b } :=
  change (fun _ hs => by rw [← hs]; rfl) (fun _ => rfl) rfl

theorem note (n : Note) : Leads (note n : ReadM σ Unit) a a :=
  change (fun _ hs => hs) (fun _ => rfl) rfl

theorem goDeeper : Leads (goDeeper : ReadM σ Unit) a { a with level := a.level + 1 } :=
  change (fun _ hs => by rw [← hs]; rfl) (fun _ => rfl) rfl

theorem learn (n : String) (t : Ty) :
    Leads (learn n t : ReadM σ Unit) a { a with locals := a.locals.put n t } :=
  change (fun _ hs => by rw [← hs]; rfl) (fun _ => rfl) rfl

theorem advance : Leads (advance : ReadM σ Unit) a a.next := by
  intro s hs
  refine ⟨(), s.next, rfl, trivial, by rw [view_next, hs], ?_⟩
  rw [moves_next]
  unfold View.next
  match a.words with
  | [] => simp; omega
  | [_] => simp
  | _ :: _ :: _ => simp; omega

/-! ## Looking at the word in view -/

variable {k : TokenKind} {v : String} {w : Word} {ws : List Word} {s : Reader σ}

theorem head_eq (hs : s.view = a) (h : a.words = (k, v) :: ws) : s.current.kind = k ∧ s.current.value = v := by
  have := congrArg View.words hs
  rw [h] at this
  injection this with h1 _
  exact ⟨congrArg Prod.fst h1, congrArg Prod.snd h1⟩

section

variable (h : a.words = (k, v) :: ws)

include h

theorem current :
    Leads (current : ReadM σ Token) a a fun t => t.kind = k ∧ t.value = v :=
  get_bind fun _ hs => pure (head_eq hs h)

theorem kindIs (k' : TokenKind) :
    Leads (kindIs k' : ReadM σ Bool) a a (· = (k == k')) :=
  get_bind fun _ hs => pure (by rw [(head_eq hs h).1])

theorem expect_miss {x : String} (hx : v ≠ x) :
    Leads (expect x : ReadM σ Bool) a a (· = false) := by
  intro s hs
  refine ⟨false, s, ?_, rfl, hs, Nat.le_refl _⟩
  rw [expect_apply, if_neg]
  rw [(head_eq hs h).2]
  exact hx

end

/-! ## Moving on -/

section

variable (h : a.words = (k, v) :: w :: ws)

include h

theorem next_eq : a.next = { a with words := w :: ws } := by
  unfold View.next
  rw [h]

theorem expect_hit :
    Leads (expect v : ReadM σ Bool) a { a with words := w :: ws } (· = true) := by
  intro s hs
  obtain ⟨r, s', hr, -, hv, hm⟩ := advance s hs
  rw [next_eq h] at hv hm
  refine ⟨true, s', ?_, rfl, hv, hm⟩
  rw [expect_apply, if_pos (head_eq hs h).2]
  injection hr with _ hs'
  rw [hs']

theorem consume :
    Leads (consume : ReadM σ String) a { a with words := w :: ws } (· = v) := by
  intro s hs
  obtain ⟨r, s', hr, -, hv, hm⟩ := advance s hs
  rw [next_eq h] at hv hm
  injection hr with _ hs'
  subst hs'
  refine ⟨v, { s.next with desk := s.next.desk.note (.readStep ("consumed: " ++ v)) },
    by rw [consume_apply, (head_eq hs h).2], rfl, ?_, hm⟩
  rw [← hv]
  unfold Reader.view Desk.note
  simp only [printed_note _ (show (Event.readStep _).printed? = none from rfl)]

end

/-- A move to words that are given as some words and what follows them. -/
theorem consume_before (h : a.words = (k, v) :: (l ++ w :: ws)) :
    Leads (Read.consume : ReadM σ String) a { a with words := l ++ w :: ws } (· = v) := by
  cases l with
  | nil => exact consume h
  | cons x l => exact consume h

theorem expect_before (h : a.words = (k, v) :: (l ++ w :: ws)) :
    Leads (expect v : ReadM σ Bool) a { a with words := l ++ w :: ws } (· = true) := by
  cases l with
  | nil => exact expect_hit h
  | cons x l => exact expect_hit h

variable {z : ReadM σ α}

theorem miss {x : String} (h : a.words = (k, v) :: ws) (hx : v ≠ x)
    (hz : Leads z a b Q) : Leads (expect x >>= fun f => if f = true then y else z) a b Q :=
  (expect_miss h hx).bindEq (ite_neg nofun hz)

theorem hit (h : a.words = (k, v) :: w :: ws) (hy : Leads y { a with words := w :: ws } b Q) :
    Leads (expect v >>= fun f => if f = true then y else z) a b Q :=
  (expect_hit h).bindEq (ite_pos rfl hy)

theorem hit_before (h : a.words = (k, v) :: (l ++ w :: ws)) (hy : Leads y { a with words := l ++ w :: ws } b Q) :
    Leads (expect v >>= fun f => if f = true then y else z) a b Q :=
  (expect_before h).bindEq (ite_pos rfl hy)

/-! ## Requests -/

theorem view_atDesk {x : DeskM σ α} (h : Serves x a.table a.pages t p Q) (hs : s.view = a) : ∃ r s',
    atDesk x s = .ok r s' ∧ Q r ∧ s'.view = { a with table := t, pages := p } ∧ s'.moves = s.moves := by
  obtain ⟨r, d', hx, hq, ht, hp, hl⟩ := h s.desk (congrArg View.table hs) (congrArg View.pages hs)
  refine ⟨r, { s with desk := d' }, ?_, hq, ?_, rfl⟩
  · unfold atDesk
    rw [hx]
  · rw [← hs]
    unfold Reader.view
    simp only [hl, ht, hp]

theorem atDesk {x : DeskM σ α} (h : Serves x a.table a.pages t p Q) :
    Leads (atDesk x) a { a with table := t, pages := p } Q := fun _ hs =>
  have ⟨r, s', hr, hq, hv, hm⟩ := view_atDesk h hs
  ⟨r, s', hr, hq, hv, hm ▸ Nat.le_refl _⟩

theorem ask {w : Writer σ} {q : Request} (h : Serves (w.serve q) a.table a.pages t p) :
    Leads (ask w q) a { a with table := t, pages := p } := by
  have noted : Leads (modify fun s => { s with asked := q :: s.asked } : ReadM σ PUnit) a a :=
    change (fun _ hs => hs) (fun _ => rfl) rfl
  exact noted.bind fun _ _ => atDesk h

theorem takePage {w : Writer σ} {Q : String → Prop} (h : Serves w.takePage a.table a.pages t p Q) :
    Leads (takePage w) a { a with table := t, pages := p } Q := atDesk h

/-! ## Between statements -/

/-- The kinds of tokens that are passed between statements. -/
def isLine : TokenKind → Bool
  | .lineEnd | .comment | .longString => true
  | _ => false

theorem roundsLeft : Leads (roundsLeft : ReadM σ Nat) a a (· = a.words.length + 3) := by
  refine get_bind fun s hs => pure ?_
  rw [← hs]
  simp [Reader.view]

theorem passLines_here (h : a.words = (k, v) :: ws) (hk : isLine k = false) (n : Nat)
    (p : Passed) : Leads (passLines wr (n + 1) p) a a (· = p) := by
  refine (current h).bind fun t ht => ?_
  obtain ⟨hkind, -⟩ := ht
  rw [hkind]
  cases k with
  | lineEnd | comment | longString => cases hk
  | _ => exact pure rfl

/-- On code, the end of a line only writes nothing. -/
theorem endLine_on_code (w : Writer σ) (h : isLine s.current.kind = false) :
    endLine w s = Read.ask w (.put "") s := by
  have pass : passLines w (s.ahead.length + 4) {} s = .ok {} s := by
    rw [passLines, bind_ok (rfl : Read.current s = .ok s.current s)]
    cases hk : s.current.kind <;> first | rfl | (rw [hk] at h; cases h)
  have leave : leaveScopes w none s = .ok () s := by
    show (do closeScopes w (s.level - s.level); if s.level < s.level then _ else _ : ReadM σ Unit) s = _
    rw [Nat.sub_self, if_neg (Nat.lt_irrefl _)]
    rfl
  rw [endLine, bind_ok (rfl : Read.roundsLeft s = .ok (s.ahead.length + 4) s), bind_ok pass, bind_ok leave]
  rfl

/-- Writing nothing changes nothing. -/
abbrev Quiet (wr : Writer σ) (a : View σ) : Prop :=
  Serves (wr.serve (.put "")) a.table a.pages a.table a.pages

/-- On code, the end of a line changes nothing, if writing nothing does. -/
theorem endLine_here (h : a.words = (k, v) :: ws) (hk : isLine k = false) (hput : Quiet wr a) :
    Leads (endLine wr) a a := by
  intro s hs
  rw [endLine_on_code wr (by rw [(head_eq hs h).1, hk])]
  exact ask hput s hs

theorem endLineInParens_here (h : a.words = (k, v) :: ws) (hk : a.inParens = true → isLine k = false)
    (hput : a.inParens = true → Quiet wr a) : Leads (endLineInParens wr) a a := by
  refine get_bind fun s hs => ?_
  have hp : s.inParens = a.inParens := congrArg View.inParens hs
  by_cases hi : a.inParens = true
  · exact ite_pos (hp.trans hi) (endLine_here h (hk hi) (hput hi))
  · exact ite_neg (fun hs => hi (hp.symm.trans hs)) (pure trivial)

end Leads

/-! ## Repetition -/

/-- The rounds of a repetition, from a value and a view to the view at its end, where the value has
`Q`. A condition that holds does not move, and each round leaves fewer words. -/
inductive Rounds (cond : ReadM σ Bool) (body : β → ReadM σ (ForInStep β)) (Q : β → Prop) :
    β → View σ → View σ → Prop
  | done {b : β} {a c : View σ} (hq : Q b) (hc : Leads cond a c (· = false)) : Rounds cond body Q b a c
  | stop {b : β} {a c : View σ} (hc : Leads cond a a (· = true))
    (hb : Leads (body b) a c fun r => ∃ b', r = .done b' ∧ Q b') : Rounds cond body Q b a c
  | step {b : β} {a d c : View σ} (N : β → Prop) (hc : Leads cond a a (· = true))
    (hb : Leads (body b) a d fun r => ∃ b', r = .yield b' ∧ N b')
    (fewer : d.words.length < a.words.length) (rest : ∀ b', N b' → Rounds cond body Q b' d c) :
    Rounds cond body Q b a c

section rounds

variable {cond : ReadM σ Bool} {body : β → ReadM σ (ForInStep β)} {last : Option Nat} {b b' : β}
variable {s s0 s' : Reader σ}

theorem moveRounds_false (hl : last ≠ some s.moves) (hc : cond s = .ok false s') (n : Nat) :
    moveRounds cond body (n + 1) last b s = .ok b s' := by
  unfold moveRounds
  rw [get_bind_apply, if_neg hl, bind_ok hc]
  rfl

theorem moveRounds_done (hl : last ≠ some s.moves) (hc : cond s = .ok true s0)
    (hb : body b s0 = .ok (.done b') s') (n : Nat) : moveRounds cond body (n + 1) last b s = .ok b' s' := by
  unfold moveRounds
  rw [get_bind_apply, if_neg hl, bind_ok hc, if_pos rfl, get_bind_apply, bind_ok hb]
  rfl

theorem moveRounds_yield (hl : last ≠ some s.moves) (hc : cond s = .ok true s0)
    (hb : body b s0 = .ok (.yield b') s') (n : Nat) :
    moveRounds cond body (n + 1) last b s = moveRounds cond body n (some s0.moves) b' s' := by
  rw [moveRounds, get_bind_apply, if_neg hl, bind_ok hc, if_pos rfl, get_bind_apply, bind_ok hb]

variable {Q : β → Prop}

/-- **Repetition.** By induction on the rounds; the reader has moved since the last one began. -/
theorem Rounds.moveRounds {a c : View σ} (h : Rounds cond body Q b a c) :
    ∀ n last s, a.words.length ≤ n → s.view = a → last ≠ some s.moves →
      ∃ r s', moveRounds cond body (n + 1) last b s = .ok r s' ∧ Q r ∧ s'.view = c ∧
        s.moves + a.words.length ≤ s'.moves + c.words.length := by
  induction h with
  | done hq hc =>
    intro n last s hn hs hl
    obtain ⟨_, s', hr, rfl, hv, hmv⟩ := hc s hs
    exact ⟨_, s', moveRounds_false hl hr n, hq, hv, hmv⟩
  | stop hc hb =>
    intro n last s hn hs hl
    obtain ⟨_, s0, hr, rfl, hv, hmv⟩ := hc s hs
    obtain ⟨_, s', hr', ⟨b', rfl, hq⟩, hv', hmv'⟩ := hb s0 hv
    exact ⟨b', s', moveRounds_done hl hr hr' n, hq, hv', by omega⟩
  | step N hc hb fewer rest ih =>
    intro n last s hn hs hl
    obtain ⟨n, rfl⟩ : ∃ k, n = k + 1 := ⟨n - 1, by omega⟩
    obtain ⟨_, s0, hr, rfl, hv, hmv⟩ := hc s hs
    obtain ⟨_, s', hr', ⟨b', rfl, hN⟩, hv', hmv'⟩ := hb s0 hv
    have moved : some s0.moves ≠ some s'.moves := by rw [ne_eq, Option.some_inj]; omega
    obtain ⟨r, s'', hr'', hq, hv'', hmv''⟩ := ih b' hN n _ s' (by omega) hv' moved
    exact ⟨r, s'', by rw [moveRounds_yield hl hr hr', hr''], hq, hv'', by omega⟩

theorem Rounds.whileMoving {a c : View σ} (h : Rounds cond body Q b a c) :
    Leads (whileMoving cond body b) a c Q := by
  refine Leads.roundsLeft.bindEq fun s hs => ?_
  exact h.moveRounds _ none s (by omega) hs nofun

end rounds

end Read

end GdScribe
