import GdScribe.Proofs.Reader.PairedScript
import GdScribe.Proofs.Target.Twins
import GdScribe.Proofs.Text.Patched
import GdScribe.Proofs.Token.Tiling

/-!
# Two runs that write C#

Scripts whose tokens differ in the contents of some string literals are read side by side, or one script
from two class tables in which the same is found.

* `Variation.Strays`: the requests at which the target looks into the text of a page, or that tell where
  in the script a token stands.

A first reader is lost after it has passed a changed literal in another way than as a value, or has sent
a request that strays.

Principal results: `twins_lockStep`, and `run_twins` for whole runs.
-/

namespace GdScribe

open Target CSharp List

/-- The written code of an accessor. -/
def Accessor.code : Accessor → String
  | .getter code | .setter _ code => code
  | _ => ""

/-- The token in view and those that follow. -/
def Reader.tokens {σ : Type} (s : Reader σ) : List Token := s.current :: s.ahead.map (·.token)

namespace Read

open EStateM (Result)

/-- What may differ between two runs. -/
structure Variation where
  /-- The literals that have other contents on the second side. -/
  changed : Token → Prop
  /-- Whether tokens may stand at other places. -/
  shifted : Prop
  contents : String → String → Prop
  text : String → String → Prop
  /-- Finished scripts. -/
  result : String → String → Prop
  /-- What occurs in every text that may differ. -/
  mark : Option (List Char)
  table : ClassTable → ClassTable → Prop

/-- What a variation has to say about texts and tables. -/
structure Variation.Sound (V : Variation) : Prop where
  wording : Wording V.text V.contents V.result
  unmarked : ∀ {a b}, V.text a b → ¬ Marked V.mark a.toList → a = b
  literal : ∀ {t}, V.changed t → t.kind = .string
  shifted : ∀ {t}, V.changed t → V.shifted
  table_refl : ∀ c, V.table c c
  alike : ∀ {c d}, V.table c d → c.Alike d
  declare : ∀ {c d}, V.table c d → ∀ name base, V.table (c.declare name base) (d.declare name base)
  update : ∀ {c d}, V.table c d → ∀ name f, V.table (c.update name f) (d.update name f)

/-- The same token, or a literal with other contents that are no words a reader looks for. -/
def Variation.token (V : Variation) (t u : Token) : Prop :=
  (V.shifted ∨ t = u) ∧ t.kind = u.kind ∧ (t.value = u.value ∨
    V.changed t ∧ V.contents t.value u.value ∧ t.value ∉ testedWords ∧ u.value ∉ testedWords)

/-- The requests at which a target looks into a text that may differ, or that tell a place. -/
def Variation.Strays (V : Variation) : Request → Prop
  | .accessor _ a => Marked V.mark a.code.toList
  | .await object signal => Marked V.mark (object ++ "." ++ signal).toList
  | .comment text => V.shifted ∧ '\n' ∈ text.toList
  | _ => False

/-- Desks that are alike up to a variation. -/
abbrev Variation.desk (V : Variation) : Desk (Pages State) → Desk (Pages State) → Prop :=
  DeskAlike V.text (StateAlike V.text V.result) V.table

/-- Readers that have read the same so far, up to a variation. -/
structure Twins (V : Variation) (s t : Reader (Pages State)) : Prop extends SamePlace s t where
  current : V.token s.current t.current
  ahead : List.Forall₂ (fun l m => V.token l.token m.token) s.ahead t.ahead
  moves : s.moves = t.moves
  desk : V.desk s.desk t.desk
  /-- No token comes twice, and a changed one is not read before it comes. -/
  nodup : s.tokens.Nodup
  fresh : ∀ x ∈ s.tokens, V.changed x → x ∉ s.strings

/-- The comparison of two runs that write C#. -/
def twins (V : Variation) : Pairing (Pages State) (Pages State) where
  token := V.token
  text := V.text
  contents := V.contents
  table := V.table
  place := id
  agree := Twins V
  lost s := (∃ x ∈ s.passed, V.changed x ∧ x ∉ s.strings ∧ x ∉ s.tokens) ∨ ∃ q ∈ s.asked, V.Strays q
  lax := (· = .endless)

variable {V : Variation} (H : V.Sound)

variable {x : Token}

theorem mem_tokens_next {σ : Type} {s : Reader σ} (h : x ∈ s.next.tokens) :
    x ∈ s.ahead.map (·.token) ∨ x = s.current.atEnd := by
  unfold Reader.tokens Reader.next at h
  cases ha : s.ahead with
  | nil =>
    exact .inr (by simpa [ha] using h)
  | cons l rest =>
    rw [ha] at h
    exact .inl h

include H

theorem Variation.Sound.not_atEnd {t : Token} (hx : V.changed x) : x ≠ t.atEnd := by
  intro h
  have hk := H.literal hx
  rw [h] at hk
  cases hk

variable {s : Reader (Pages State)}

theorem Variation.Sound.comes_later (hs : s.tokens.Nodup)
    (hx : V.changed x) (h : x ∈ s.next.tokens) : x ∈ s.ahead.map (·.token) ∧ x ≠ s.current := by
  rcases mem_tokens_next h with h | h
  · exact ⟨h, fun hc => (nodup_cons.mp hs).1 (hc ▸ h)⟩
  · exact absurd h (H.not_atEnd hx)

variable {t : Reader (Pages State)}

theorem Twins.next (h : Twins V s t) : Twins V s.next t.next := by
  have fresh : ∀ x ∈ s.next.tokens, V.changed x → x ∉ s.strings := fun x hn hx =>
    h.fresh x (.tail _ (H.comes_later h.nodup hx hn).1) hx
  have ha := h.ahead
  have nodup : (s.current :: s.ahead.map (·.token)).Nodup := h.nodup
  unfold Reader.next at fresh
  unfold Reader.next
  generalize s.ahead = as, t.ahead = bs at ha fresh nodup ⊢
  cases ha with
  | nil =>
    exact { h with
      current := ⟨h.current.1.imp_right (congrArg Token.atEnd), rfl, .inl rfl⟩, ahead := .nil
      moves := congrArg (· + 1) h.moves, desk := { h.desk with }, nodup := nodup_cons.mpr ⟨not_mem_nil, nodup_nil⟩
      fresh := fresh }
  | cons hl hs =>
    exact { h with
      current := hl, ahead := hs, moves := congrArg (· + 1) h.moves, desk := { h.desk with }
      nodup := (nodup_cons.mp nodup).2, fresh := fresh }

omit H in
theorem Twins.atDesk {α : Type} {R : α → α → Prop} (h : Twins V s t)
    {x y : DeskM (Pages State) α} (m : Meets V.desk R (x s.desk) (y t.desk)) :
    (twins V).Match R (Read.atDesk x s) (Read.atDesk y t) := by
  unfold Read.atDesk
  cases hx : x s.desk <;> cases hy : y t.desk <;> rw [hx, hy] at m
  · exact .inr ⟨m.1, { h with desk := m.2 }⟩
  · exact m.elim
  · exact m.elim
  · exact .inr (.inr (.inr ⟨m.1, { h with desk := m.2 }⟩))

variable {q q' : Request}

/-- A request that does not stray has the same accessors on both sides. -/
theorem Variation.Sound.sameAccessors (h : RequestAlike V.text V.contents q q')
    (hq : ¬ V.Strays q) : SameAccessors q q' := by
  cases h with
  | same q => exact sameAccessors_refl q
  | accessor _ ha =>
    cases ha with
    | getterMethod m => rfl
    | setterMethod m => rfl
    | getter hc | setter _ hc => exact congrArg _ (H.unmarked hc hq)
  | _ => trivial

omit H in
theorem Twins.lost_ask (w : Writer (Pages State)) (hq : V.Strays q) (s : Reader (Pages State)) :
    (twins V).lost (endState (Read.ask w q s)) := by
  rw [show endState (Read.ask w q s) = _ from endState_atDesk ..]
  exact .inr ⟨q, mem_cons_self, hq⟩

section

variable (h : Twins V s t)

include h

theorem Twins.ask (z : Settings) (hq : RequestAlike V.text V.contents q q') :
    (twins V).Match Eq (ask (writer z) q s) (ask (writer z) q' t) := by
  by_cases strays : V.Strays q
  · exact .of_lost (lost_ask _ strays s)
  · have served := serve_meets H.wording H.alike z hq (H.sameAccessors hq strays) h.desk
    exact atDesk (s := { s with asked := q :: s.asked }) (t := { t with asked := q' :: t.asked })
      { h with } served

/-- What is awaited is looked into, so it has to be the same on both sides. -/
theorem Twins.awaits (z : Settings) {a b : String} (hab : V.text a b) :
    (twins V).Match Eq (Read.ask (writer z) (.await (awaited a).1 (awaited a).2) s)
      (Read.ask (writer z) (.await (awaited b).1 (awaited b).2) t) := by
  by_cases marked : Marked V.mark a.toList
  · refine .of_lost (lost_ask _ ?_ s)
    obtain ⟨x, hx, hi⟩ := marked
    refine ⟨x, hx, hi.trans ?_⟩
    unfold awaited
    split
    · next hs => exact (Text.eq_of_splitLast (x := '.') rfl hs) ▸ infix_rfl
    · rw [String.toList_append]
      exact (suffix_append ..).isInfix
  · rw [H.unmarked hab marked]
    exact h.ask H z (.same _)

theorem Twins.report (z : Settings) {a b : Token} (hab : V.token a b) (dropped : List String) :
    (twins V).Match Eq (report (writer z) (panicMessage dropped a) s)
      (report (writer z) (panicMessage dropped b) t) := by
  have printed (m : String) : (twins V).StaysLost (print m : ReadM (Pages State) Unit) := fun _ l => l
  rcases hab.1 with hs | rfl
  · have strays (m : String) : V.Strays (.comment (m ++ "\n")) := ⟨hs, by simp⟩
    exact .of_lost (Pairing.lost_after (fun _ => printed _) (lost_ask _ (strays _) s))
  · refine (h.ask H z (.same _)).bind (fun _ => printed _) fun _ _ _ => .change (fun s t h => ?_) fun _ l => l
    exact { h with desk := { h.desk with } }

/-- A changed literal that is passed is lost, unless it is read as a value. -/
theorem Twins.step : (twins V).lost s.next ∨
    s.current.kind = t.current.kind ∧ s.current.value = t.current.value ∧ Twins V s.next t.next := by
  rcases h.current.2.2 with same | ⟨hx, -⟩
  · exact .inr ⟨h.current.2.1, same, h.next H⟩
  · refine .inl (.inl ⟨s.current, by simp, hx, ?_, fun hn => (H.comes_later h.nodup hx hn).2 rfl⟩)
    rw [next_strings]
    exact h.fresh _ mem_cons_self hx

theorem Twins.string : (twins V).Match V.contents (consumeString s) (consumeString t) := by
  have value : V.contents s.current.value t.current.value := by
    rcases h.current.2.2 with same | ⟨-, hc, -⟩
    · exact same ▸ H.wording.contents_refl _
    · exact hc
  have next : Twins V { s.next with strings := s.current :: s.strings }
      { t.next with strings := t.current :: t.strings } := by
    refine { h.next H with fresh := fun x hn hx hs => ?_ }
    have later := H.comes_later h.nodup hx hn
    rcases mem_cons.mp hs with hc | hs
    · exact later.2 hc
    · exact h.fresh x (.tail _ later.1) hx hs
  rw [consumeString_apply, consumeString_apply]
  exact .inr ⟨value, { next with desk := { next.desk with } }⟩

end

theorem Variation.Sound.gone_next (hx : V.changed x) (h : x ∉ s.tokens) : x ∉ s.next.tokens := fun hn =>
  (mem_tokens_next hn).elim (fun h' => h (.tail _ h')) (H.not_atEnd hx)

omit H in
/-- A reader stays lost that passes more, sends more requests and reads only literals that come. -/
theorem Twins.lost_mono {s' : Reader (Pages State)} (l : (twins V).lost s) (hp : s.passed ⊆ s'.passed)
    (hs : s'.strings ⊆ s.current :: s.strings) (ht : ∀ x, V.changed x → x ∉ s.tokens → x ∉ s'.tokens)
    (hq : s.asked ⊆ s'.asked) : (twins V).lost s' := by
  refine l.imp (fun ⟨x, h, hx, hn, hg⟩ => ⟨x, hp h, hx, fun hn' => ?_, ht x hx hg⟩) fun ⟨q, h, hst⟩ => ⟨q, hq h, hst⟩
  rcases mem_cons.mp (hs hn') with rfl | h'
  · exact hg mem_cons_self
  · exact hn h'

omit H in
theorem Twins.lost_asked (w : Writer (Pages State)) (q : Request) : (twins V).StaysLost (Read.ask w q) := by
  intro s l
  have l' : (twins V).lost { s with asked := q :: s.asked } :=
    Twins.lost_mono l (fun _ => id) (subset_cons_self _ _) (fun _ _ => id) (subset_cons_self _ _)
  rw [show endState (Read.ask w q s) = _ from endState_atDesk ..]
  exact l'

/-- **Readers of scripts that vary** pass them in lock step. -/
theorem twins_lockStep (z : Settings) : (twins V).LockStep (writer z) (writer z) where
  endless := rfl
  place := Function.injective_id
  token_refl _ := ⟨.inr rfl, rfl, .inl rfl⟩
  kind h := .inl h.2.1
  value h _ hk := h.2.2.resolve_right fun hc => hk (H.literal hc.1)
  word h x hx := by
    rcases h.2.2 with same | ⟨-, -, ht, hu⟩
    · rw [same]
    · exact ⟨fun e => absurd (e ▸ hx) ht, fun e => absurd (e ▸ hx) hu⟩
  text_refl := H.wording.refl
  contents_refl := H.wording.contents_refl
  alike := H.alike
  declare := H.declare
  update := H.update
  near h := ⟨h.toSamePlace, h.current, h.desk.classes⟩
  near_total s := ⟨s, ⟨rfl, rfl, rfl, rfl, rfl⟩, ⟨.inr rfl, rfl, .inl rfl⟩, H.table_refl _⟩
  moves := Twins.moves
  step := Twins.step H
  string := Twins.string H
  trace h _ := { h with desk := { h.desk with } }
  reportNot h := .inr ⟨rfl, { h with desk := { h.desk with } }⟩
  level h _ := { h with level := rfl }
  isTool h _ := { h with isTool := rfl }
  classes h _ := { h with classes := rfl }
  locals h _ := { h with locals := rfl }
  inParens h _ := { h with inParens := rfl }
  table h _ _ hc := { h with desk := { h.desk with classes := hc } }
  history h _ _ := { h with }
  serve h hq _ := h.ask H z hq
  take h := h.atDesk (Page.takePage_meets (H.wording.refl _) h.desk)
  report h hab _ _ dropped := h.report H z hab dropped
  awaits h hab := h.awaits H z hab
  lost_next s l := Twins.lost_mono l (by simp) (by simp) (fun _ hx => H.gone_next hx) (by simp)
  lost_string s l := by
    rw [consumeString_apply]
    exact Twins.lost_mono l (by simp [endState]) (by simp [endState]) (fun _ hx => H.gone_next hx)
      (by simp [endState])
  lost_same l hc ha hp hs hq _ := by
    refine Twins.lost_mono l (by simp [hp]) (by simp [hs]) (fun _ _ h => ?_) (by simp [hq])
    unfold Reader.tokens at h ⊢
    rwa [hc, ha]
  lost_ask _ _ _ l :=
    Twins.lost_mono l (fun _ => id) (subset_cons_self ..) (fun _ _ => id) (subset_cons_self ..)
  same h := h.2.1
  remark text := ⟨fun _ _ h => h.ask H z (.same _), Twins.lost_asked _ _⟩

omit H in
/-- Outcomes that fit together, if the first reader is not lost and both come to an end. -/
theorem Twins.outcome {x y : Result Fault (Reader (Pages State)) Unit} (m : (twins V).Match Eq x y)
    (values : ∀ t ∈ (Outcome.ofResult x).passed, V.changed t → t ∈ (Outcome.ofResult x).strings)
    (clear : ∀ q ∈ (Outcome.ofResult x).asked, ¬ V.Strays q)
    (hx : (Outcome.ofResult x).fault ≠ some .endless) (hy : (Outcome.ofResult y).fault ≠ some .endless) :
    (Outcome.ofResult x).fault = (Outcome.ofResult y).fault ∧
      V.desk (Outcome.ofResult x).desk (Outcome.ofResult y).desk := by
  have found : ¬ (twins V).lost (endState x) := by
    rintro (⟨t, passed, changed, out, -⟩ | ⟨q, asked, strays⟩) <;> cases x
    · exact out (values t passed changed)
    · exact out (values t passed changed)
    · exact clear q asked strays
    · exact clear q asked strays
  cases x with
  | ok a s =>
    cases y with
    | ok b t =>
      obtain ⟨-, agree⟩ := m.resolve_left found
      exact ⟨rfl, agree.desk⟩
    | error f t => exact absurd (congrArg some (m.resolve_left found)) hy
  | error e s =>
    cases y with
    | ok b t => exact absurd (congrArg some (m.resolve_left found)) hx
    | error f t =>
      rcases m.resolve_left found with he | hf | ⟨rfl, agree⟩
      · exact absurd (congrArg some he) hx
      · exact absurd (congrArg some hf) hy
      · exact ⟨rfl, agree.desk⟩

/-- **Runs over scripts that vary** end alike, if the changed literals were read as values and no request
strayed. -/
theorem run_twins (z : Settings) (name : String) {text text' : String} {desk desk' : Desk (Pages State)}
    (tokens : List.Forall₂ V.token (Scan.tokens (text ++ "\n")) (Scan.tokens (text' ++ "\n")))
    (desks : V.desk desk desk')
    (values : ∀ t ∈ (run (writer z) name text desk).passed, V.changed t → t ∈ (run (writer z) name text desk).strings)
    (clear : ∀ q ∈ (run (writer z) name text desk).asked, ¬ V.Strays q)
    (ends : (run (writer z) name text desk).fault ≠ some .endless)
    (ends' : (run (writer z) name text' desk').fault ≠ some .endless) :
    (run (writer z) name text desk).fault = (run (writer z) name text' desk').fault ∧
      V.desk (run (writer z) name text desk).desk (run (writer z) name text' desk').desk := by
  have nodup := Scan.nodup_tokens (text ++ "\n")
  unfold Scan.tokens at tokens nodup
  rw [← (Scan.group_eq _ []).1] at tokens nodup
  rw [← (Scan.group_eq _ []).1, forall₂_map_left_iff, forall₂_map_right_iff] at tokens
  change Forall₂ _ (scan (text ++ "\n")).lexemes (scan (text' ++ "\n")).lexemes at tokens
  change ((scan (text ++ "\n")).lexemes.map (·.token)).Nodup at nodup
  cases h : (scan (text ++ "\n")).lexemes with
  | nil =>
    rw [h] at tokens
    have h' := forall₂_nil_left_iff.mp tokens
    unfold run
    simp only [h, h']
    exact ⟨trivial, { desks with }⟩
  | cons first rest =>
    rw [h] at tokens nodup
    obtain ⟨first', rest', head, tail, h'⟩ := forall₂_cons_left_iff.mp tokens
    rw [run_cons _ _ _ h] at values clear ends ⊢
    rw [run_cons _ _ _ h'] at ends' ⊢
    refine Twins.outcome ((Paired.script (twins_lockStep H z).laws _ _ name).agree _ _ ?_) values clear ends ends'
    exact ⟨⟨rfl, rfl, rfl, rfl, rfl⟩, head, tail, rfl, { desks with }, nodup, fun _ _ _ => not_mem_nil⟩

end Read

end GdScribe
