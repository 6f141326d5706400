import GdScribe.Proofs.Classes.Standing
import GdScribe.Proofs.Reader.CourseScript

/-!
# The course of a reader inside a member

While a reader is inside a member of a class, it notes what belongs to the member, and leaves by its
lines what they leave by their indentation.

Principal results: `memberCourse_laws`; `member_idle` and `member_moves`: a reader moves on at a member
unless it is idle.
-/

namespace GdScribe

/-- The notes inside a member. -/
def Note.isBody : Note → Bool
  | .line _ | .deeper | .resumed _ | .closure _ | .learned _ _ | .used _ => true
  | _ => false

/-- The notes of a member of a class, with what is put down for it. -/
def Note.IsOf (owner : String) (n : Note) : Prop := n.isBody = true ∨ ∃ e, n = .recorded owner e

namespace Read

variable {σ α : Type}

/-- What a request of a reader leaves as it is. -/
structure Still (s s' : Reader σ) : Prop where
  current : s'.current = s.current
  classes : s'.classes = s.classes
  history : s'.history = s.history
  level : s'.level = s.level

theorem Still.refl (s : Reader σ) : Still s s := ⟨rfl, rfl, rfl, rfl⟩

variable {a b c : Reader σ}

theorem Still.trans (h : Still a b) (h' : Still b c) : Still a c :=
  ⟨h'.current.trans h.current, h'.classes.trans h.classes, h'.history.trans h.history, h'.level.trans h.level⟩

theorem atDesk_still (act : DeskM σ α) (s : Reader σ) : Goes (atDesk act) s (fun _ => Still s) (Still s) := by
  unfold Goes atDesk
  cases act s.desk <;> exact ⟨rfl, rfl, rfl, rfl⟩

theorem ask_still (w : Writer σ) (q : Request) (s : Reader σ) : Goes (ask w q) s (fun _ => Still s) (Still s) := by
  have asked : Still s { s with asked := q :: s.asked } := ⟨rfl, rfl, rfl, rfl⟩
  exact .bind_eq rfl <| (atDesk_still (w.serve q) { s with asked := q :: s.asked }).mono
    (fun _ _ h => asked.trans h) fun _ h => asked.trans h

theorem closeScopes_still (w : Writer σ) (n : Nat) :
    ∀ s : Reader σ, Goes (closeScopes w n) s (fun _ => Still s) (Still s) := by
  induction n with
  | zero => exact .refl
  | succ n ih =>
    intro s
    refine (ask_still w _ s).bind fun _ s' h => ?_
    exact (ih s').mono (fun _ _ h' => h.trans h') fun _ h' => h.trans h'

/-! ## The course inside a member -/

/-- What was noted on the way from one state to another, by notes for the class that is being read. -/
def Noted (P : String → Note → Prop) (s s' : Reader σ) : Prop :=
  ∃ ns, s'.history = ns ++ s.history ∧ ∀ n ∈ ns, P s.className n

/-- The moves inside a member: its class goes on, and lines leave what they leave by indentation. -/
structure InMember (P : String → Note → Prop) (s s' : Reader σ) : Prop where
  classes : s'.classes = s.classes
  noted : Noted P s s'
  descends : Descends s.level (standing s.history) s'.level (standing s'.history)

/-- The course of a reader inside a member. -/
def memberCourse (σ : Type) (P : String → Note → Prop) : Course σ where
  ok := InMember P
  fault _ := Noted P

section course

variable {P : String → Note → Prop} {w : Writer σ} {s s' : Reader σ}

theorem className_eq (h : s'.classes = s.classes) : s'.className = s.className := by
  rw [Reader.className, h]
  rfl

theorem Noted.trans (h : Noted P a b) (hc : b.classes = a.classes) (h' : Noted P b c) : Noted P a c := by
  obtain ⟨ns, hh, hn⟩ := h
  obtain ⟨ns', hh', hn'⟩ := h'
  refine ⟨ns' ++ ns, by rw [hh', hh, List.append_assoc], fun n hm => ?_⟩
  rcases List.mem_append.mp hm with hm | hm
  · exact className_eq hc ▸ hn' n hm
  · exact hn n hm

theorem InMember.same (hc : s'.classes = s.classes) (hh : s'.history = s.history) (hl : s'.level = s.level) :
    InMember P s s' := by
  refine ⟨hc, ⟨[], hh, nofun⟩, ?_⟩
  rw [hh, hl]
  exact .refl ..

theorem Still.inMember (h : Still s s') : InMember P s s' := .same h.classes h.history h.level

theorem InMember.trans (h : InMember P a b) (h' : InMember P b c) : InMember P a c :=
  ⟨h'.classes.trans h.classes, h.noted.trans h.classes h'.noted, h.descends.trans h'.descends⟩

theorem InMember.note {n : Note} (hc : s'.classes = s.classes) (hh : s'.history = n :: s.history)
    (hn : P s.className n) (hd : Descends s.level (standing s.history) s'.level ((standing s.history).step n)) :
    InMember P s s' := by
  refine ⟨hc, ⟨[n], hh, ?_⟩, ?_⟩
  · simpa using hn
  · rw [hh]
    exact hd

theorem ask_inMember (q : Request) : Keeps (memberCourse σ P) (ask w q) := fun s =>
  (ask_still w q s).mono (fun _ _ h => h.inMember) fun _ h => h.inMember.noted

theorem takePage_inMember : Keeps (memberCourse σ P) (takePage w) := fun s =>
  (atDesk_still w.takePage s).mono (fun _ _ h => h.inMember) fun _ h => h.inMember.noted

theorem memberCourse_joins : (memberCourse σ P).Joins where
  refl s := (Still.refl s).inMember
  trans h h' := h.trans h'
  fail _ s _ := (Still.refl s).inMember.noted
  trans_fault h h' := h.noted.trans h.classes h'

theorem next_inMember (s : Reader σ) : InMember P s s.next := by
  unfold Reader.next
  split <;> exact .same rfl rfl rfl

theorem onPage_inMember {x : ReadM σ α} (h : Keeps (memberCourse σ P) x) : Keeps (memberCourse σ P) (onPage w x) :=
  memberCourse_joins.onPage (ask_inMember _) h takePage_inMember

variable (hP : ∀ c n, n.isBody = true → P c n)

include hP

theorem deepen_inMember (q : Request) : Keeps (memberCourse σ P) (deepen w q) := by
  intro s
  have deeper : InMember P s { s with level := s.level + 1, history := .deeper :: s.history } :=
    .note rfl rfl (hP _ _ rfl) (.deeper ..)
  refine Goes.bind_eq rfl <| (ask_still w q _).bind_mono
    (fun _ h => deeper.noted.trans rfl h.inMember.noted) fun _ s' h => ?_
  exact deeper.trans h.inMember

theorem leaveScopes_inMember (indent : Option Nat) : Keeps (memberCourse σ P) (leaveScopes w indent) := by
  intro s
  cases indent with
  | none =>
    change Goes (do closeScopes w (s.level - s.level); if s.level < s.level then _) s _ _
    rw [Nat.sub_self, if_neg (Nat.lt_irrefl _)]
    exact (Still.refl s).inMember
  | some i =>
    have lined : Noted P s { s with history := .line i :: s.history } :=
      ⟨[.line i], rfl, by simpa using hP _ (.line i) rfl⟩
    have line := Descends.line s.level (standing s.history) i
    change Goes (do
      closeScopes w (s.level - i)
      if i < s.level then modify fun s => { s with level := i } : ReadM σ Unit)
        { s with history := .line i :: s.history } _ _
    by_cases hi : i < s.level
    · rw [if_pos hi]
      refine (closeScopes_still w ..).bind_mono (fun _ h => lined.trans rfl h.inMember.noted) fun _ s' h => ?_
      rw [Nat.min_eq_right (Nat.le_of_lt hi)] at line
      exact InMember.note h.classes h.history (hP _ _ rfl) line
    · rw [if_neg hi, Nat.sub_eq_zero_of_le (Nat.le_of_not_lt hi)]
      rw [Nat.min_eq_left (Nat.le_of_not_lt hi)] at line
      exact InMember.note rfl rfl (hP _ _ rfl) line

/-- **The course inside a member is kept by expressions and statements**, for every target. -/
theorem memberCourse_laws (w : Writer σ) : (memberCourse σ P).Laws w where
  toJoins := memberCourse_joins
  next := next_inMember
  log _ _ := .same rfl rfl rfl
  strings _ _ := .same rfl rfl rfl
  inParens _ _ := .same rfl rfl rfl
  ask q _ := ask_inMember q
  onPage := onPage_inMember
  choiceHead _ _ := memberCourse_joins.choiceHead next_inMember (ask_inMember _) (ask_inMember _)
    (deepen_inMember hP _) takePage_inMember
  bracketed h := memberCourse_joins.bracketed (ask_inMember _) (onPage_inMember h) (ask_inMember _)
  deepen q _ := deepen_inMember hP q
  leaveScopes := leaveScopes_inMember hP
  learn _ _ _ := InMember.note rfl rfl (hP _ _ rfl) (.refl ..)
  closure _ _ := InMember.note rfl rfl (hP _ _ rfl) (.refl ..)
  use _ _ := InMember.note rfl rfl (hP _ _ rfl) (.refl ..)

theorem memberCourse_memberLaws (hR : ∀ c e, P c (.recorded c e)) (w : Writer σ) :
    (memberCourse σ P).MemberLaws w where
  toLaws := memberCourse_laws hP w
  askMember q _ := ask_inMember q
  withAccessors _ _ h := memberCourse_joins.bind (deepen_inMember hP _) fun _ =>
    memberCourse_joins.bind h fun _ => ask_inMember _
  resuming h s := by
    refine Goes.bind_eq rfl <| (h.goes s).bind_mono (fun _ ⟨_, h⟩ => h) fun _ s' h => ?_
    have resumed : Noted P s' { s' with level := s.level, history := .resumed s.level :: s'.history } :=
      ⟨[.resumed s.level], rfl, by simpa using hP _ (.resumed s.level) rfl⟩
    exact ⟨h.classes, h.noted.trans h.classes resumed, h.descends.resumed⟩
  record e _ s := InMember.note rfl rfl (hR _ e) (.refl ..)
  putMethod := memberCourse_joins.putMethod (fun e s => InMember.note rfl rfl (hR _ e) (.refl ..))
    fun _ => ask_inMember _

end course

/-! ## Readers that move on -/

/-- No member starts at the token in view, and no line ends there. -/
structure Idle (s : Reader σ) : Prop where
  word : ∀ x ∈ memberWords, s.current.value ≠ x
  lineEnd : s.current.kind ≠ .lineEnd
  comment : s.current.kind ≠ .comment
  longString : s.current.kind ≠ .longString

theorem Idle.of_still {s s' : Reader σ} (h : Idle s) (hs : Still s s') : Idle s' := by
  obtain ⟨word, lineEnd, comment, longString⟩ := h
  constructor <;> rw [hs.current] <;> assumption

section idle

variable {w : Writer σ} {r : Rules σ} {s : Reader σ}

theorem endLine_idle (h : Idle s) : Goes (endLine w) s (fun _ => Still s) (Still s) := by
  have passed : passLines w (s.ahead.length + 4) {} s = .ok {} s := by
    have seen : (current : ReadM σ Token) s = .ok s.current s := rfl
    rw [passLines, bind_ok seen]
    cases hk : s.current.kind with
    | lineEnd => exact absurd hk h.lineEnd
    | comment => exact absurd hk h.comment
    | longString => exact absurd hk h.longString
    | _ => rfl
  have left : leaveScopes w none s = .ok () s := by
    change (do closeScopes w (s.level - s.level); if s.level < s.level then _) s = _
    rw [Nat.sub_self, if_neg (Nat.lt_irrefl _)]
    rfl
  exact .bind_eq rfl <| .bind_eq passed <| .bind_eq left (ask_still w _ s)

theorem member_idle (h : Idle s) (inner : ReadM σ Unit) :
    Goes (member w r inner) s (fun b s' => b = true ∧ Still s s') (Still s) := by
  unfold Goes
  rw [member_skips h.word]
  exact (endLine_idle h).bind fun _ _ h' => ⟨rfl, h'⟩

end idle

theorem moves_invariant (k : Nat) (w : Writer σ) : Invariant (fun s : Reader σ => k ≤ s.moves) w where
  next s h := by
    unfold Reader.next
    split <;> exact Nat.le_succ_of_le h
  serve s q h := by rw [endState_atDesk]; exact h
  takePage s h := by rw [endState_atDesk]; exact h
  note _ _ _ h := h
  learn _ _ _ h := h
  use _ _ h := h
  record _ _ h := h
  enter _ _ _ _ h := h

section moves

variable {w : Writer σ} {s : Reader σ} {n m : Nat}

theorem lt_next_moves (s : Reader σ) : s.moves < s.next.moves := by
  unfold Reader.next
  split <;> exact Nat.lt_succ_self _

/-- The states that come after the moves of a state. -/
abbrev Course.beyond (s : Reader σ) : Course σ := .keeping fun u => s.moves < u.moves

/-- From a state, an action gets beyond it or fails. -/
abbrev Advances (x : ReadM σ α) (s : Reader σ) : Prop := Goes x s (fun _ s' => s.moves < s'.moves)

theorem Goes.moved {x : ReadM σ α} (h : Keeps (.beyond s) x) {u : Reader σ} (hu : s.moves < u.moves) :
    Goes x u (fun _ s' => s.moves < s'.moves) :=
  (h.goes u).mono (fun _ _ h' => h' hu) fun _ _ => trivial

theorem Goes.beyond {x : ReadM σ α} (h : Keeps (.beyond s) x) :
    Goes x s.next (fun _ s' => s.moves < s'.moves) := .moved h (lt_next_moves s)

theorem endLine_moves (h : s.current.kind = .lineEnd ∨ s.current.kind = .comment ∨
    s.current.kind = .longString) : Advances (endLine w) s := by
  have L : (Course.beyond s).Laws w :=
    (moves_invariant (s.moves + 1) w).toOuter.laws
  have seen : (current : ReadM σ Token) s = .ok s.current s := rfl
  have passed : Advances (passLines w (s.ahead.length + 4) {}) s := by
    refine .bind_eq seen ?_
    rcases h with hk | hk | hk <;> rw [hk]
    · exact .bind_eq rfl (.beyond (.passLines L _ _))
    all_goals exact .bind_eq rfl (.bind_eq (consume_apply s) (.moved (.passLines L _ _) (lt_next_moves s)))
  refine .bind_eq rfl <| passed.bind_mono (fun _ _ => trivial) fun p s' hs => ?_
  exact .moved (.bind L (L.leaveScopes p.indent) fun _ => L.lines.writePassed (k := 0) p) hs

theorem property_moves (static : Bool)
    (h : s.current.value = "@" ∨ s.current.value = "const" ∨ s.current.value = "var") :
    Advances (property w (rules w n) static) s := by
  have L : (Course.beyond s).ClassLaws w :=
    (moves_invariant (s.moves + 1) w).laws.toClassLaws
  have L' := L.toLaws
  have M := L.toMemberLaws.logic
  have H := RulesKeep.rules L' n
  by_cases mark : s.current.value = "@"
  · have marked : Advances (markers w) s := by
      refine .bind_eq rfl ?_
      refine .ifExpect _ (fun _ => .beyond (.bind L' (M.nextMarker (k := 0) (M.markers_refl _)) fun step => ?_))
        (absurd mark)
      cases step with
      | done a => exact .pure L' _
      | yield a => exact .expectRounds L' _ (fun a => M.nextMarker (k := 0) (M.markers_refl a)) _ a
    exact marked.bind fun a _ => .moved (H.markedProperty M static (M.markers_refl a))
  · have declared (constant : Bool) : Keeps (.beyond s) (do
          let name ← consume
          writeMarker w name none
          declareProperty w (rules w n) name (if constant then .constant else if static then .static else .plain)) :=
      .bind L' (.consume L') fun name => .bind L' (M.writeMarker (k := 0) name .none) fun _ =>
        H.declareProperty M name _
    refine .bind_eq (markers_skips mark) <| .expect _ (fun _ => .beyond (declared true)) fun constant => ?_
    refine .ifExpect _ (fun _ => .beyond (declared false)) (absurd ?_)
    simpa [mark, constant] using h

/-- The members of a class, with classes up to `m` levels inside. -/
abbrev bodyWithin (w : Writer σ) (n m : Nat) : ReadM σ Unit := classBodyWithin w (rules w n) m

theorem item_moves (h : s.current.value ∈ ["class", "enum", "func", "signal", "@", "const", "var"]) :
    Advances (item w (rules w n) false (bodyWithin w n m)) s := by
  have I : Invariant (fun u : Reader σ => s.moves < u.moves) w := moves_invariant (s.moves + 1) w
  have L := I.laws.toClassLaws
  have M := L.toMemberLaws.logic
  have H := RulesKeep.rules L.toLaws n
  refine .ifExpect _ (fun _ => .beyond (keeping_innerClass I.toOuter ((L.whole H).classBodyWithin m))) fun inner => ?_
  refine .ifExpect _ (fun _ => .beyond (H.enumeration M)) fun enumeration => ?_
  refine .ifExpect _ (fun _ => .beyond (H.method M _)) fun method => ?_
  refine .ifExpect _ (fun _ => .beyond (H.signal M)) fun signal => property_moves false ?_
  simpa [inner, enumeration, method, signal] using h

theorem member_moves (h : ¬ Idle s) : Advances (member w (rules w n) (bodyWithin w n m)) s := by
  have L : (Course.beyond s).ClassLaws w :=
    (moves_invariant (s.moves + 1) w).laws.toClassLaws
  have L' := L.toLaws
  have M := L.toMemberLaws
  have H := RulesKeep.rules L' n
  have inner := (L.whole H).classBodyWithin m
  have ending : Keeps (.beyond s) (do endLine w; return true) :=
    .bind L' (.endLine L') fun _ => .pure L' _
  by_cases hw : ∀ x ∈ memberWords, s.current.value ≠ x
  · have kind : s.current.kind = .lineEnd ∨ s.current.kind = .comment ∨ s.current.kind = .longString := by
      by_contra hk
      simp only [not_or] at hk
      exact h ⟨hw, hk.1, hk.2.1, hk.2.2⟩
    unfold Advances Goes
    rw [member_skips hw]
    exact (endLine_moves kind).bind fun _ _ hs => hs
  obtain ⟨x, hx, hv⟩ : ∃ x ∈ memberWords, s.current.value = x := by simpa using hw
  refine .ifExpect _ (fun _ => .beyond (.bind L' (L.note _ rfl) fun _ => .pure L' _)) fun pass => ?_
  refine .expect _ (fun _ => .beyond (.bind L' ((L.whole H).item true inner) fun _ => ending)) fun static => ?_
  refine (item_moves ?_).bind fun _ _ => .moved ending
  have other : x ≠ "pass" ∧ x ≠ "static" := ⟨hv ▸ pass, hv ▸ static⟩
  rw [hv]
  simpa [memberWords, other.1, other.2] using hx

end moves

end Read

end GdScribe
