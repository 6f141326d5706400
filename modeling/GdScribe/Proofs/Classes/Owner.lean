import GdScribe.Proofs.Classes.Told

/-!
# The class that a member belongs to

A reader that goes through the classes of a script puts every member down in the class that encloses it
by indentation, as far as classes are nested by one tab each.

* `Owned`: a class is the one that encloses a line by its indentation.
* `Sound`: everything in a history was put down in such a class.

Principal results: `classBodyWithin_among` and `script_sound`.
-/

namespace GdScribe

open List

/-- A class encloses a line by its indentation: the script's own class a line that is not indented, and an
inner class a line that is indented by one tab more, if its own indentation is the number of inner
classes around it. -/
def Owned (main : String) (p : Standing) (owner : String) : Prop :=
  p.aligned = true → (p.indent = 0 → owner = main) ∧
    ∀ c i rest, p.nest = (c, i) :: rest → p.indent = i + 1 → rest.length = i → owner = c

/-- Everything was put down in the class that encloses its member. -/
def AllOwned (main : String) : List Note → Prop
  | [] => True
  | .recorded owner _ :: h => Owned main (memberStanding h) owner ∧ AllOwned main h
  | _ :: h => AllOwned main h

/-- Everything was put down in the class that encloses its member, in a script whose own class is `main`. -/
structure Sound (main : String) (h : List Note) : Prop where
  owned : AllOwned main h
  script : ∀ name base, .script name base ∈ h → name = main

theorem Placed.owned {around : List (String × Nat)} {level : Nat} {p : Standing} (h : Placed around level p)
    (hd : Deep around) (hhead : ∀ c ∈ around.head?, c.2 ≤ level) (main : String) :
    Owned main p ((around.map Prod.fst ++ [main]).headD "") := by
  intro ha
  obtain ⟨top, nested⟩ := h.owners hd hhead ha
  refine ⟨fun hi => ?_, fun c i rest hn hi hr => ?_⟩
  · rw [top hi]
    rfl
  · have same := nested (by rw [hn, length_cons, hr, hi])
    rw [same, hn]
    rfl

theorem memberStanding_append {ns h : List Note} (hns : ∀ n ∈ ns, ∀ words, n ≠ .member words) :
    memberStanding (ns ++ h) = memberStanding h := by
  induction ns with
  | nil => rfl
  | cons n ns ih =>
    have rest := ih fun n hn => hns n (.tail _ hn)
    cases n with
    | member words => exact absurd rfl (hns _ mem_cons_self words)
    | _ => exact rest

namespace Sound

variable {main : String} {h ns : List Note}

theorem cons (hs : Sound main h) {n : Note} (hr : ∀ owner e, n ≠ .recorded owner e)
    (hn : ∀ name base, n ≠ .script name base) : Sound main (n :: h) := by
  refine ⟨?_, fun name base hm => ?_⟩
  · cases n with
    | recorded owner e => exact absurd rfl (hr owner e)
    | _ => exact hs.owned
  · rcases mem_cons.mp hm with hm | hm
    · exact absurd hm.symm (hn name base)
    · exact hs.script name base hm

theorem append (hs : Sound main h) {owner : String} (hns : ∀ n ∈ ns, n.IsOf owner)
    (ho : Owned main (memberStanding h) owner) : Sound main (ns ++ h) := by
  induction ns with
  | nil => exact hs
  | cons n ns ih =>
    have later : ∀ n ∈ ns, n.IsOf owner := fun n hn => hns n (.tail _ hn)
    have rest := ih later
    rcases hns n mem_cons_self with hb | ⟨e, rfl⟩
    · exact rest.cons (by rintro _ _ rfl; cases hb) (by rintro _ _ rfl; cases hb)
    · have same : memberStanding (ns ++ h) = memberStanding h :=
        memberStanding_append fun n hn => (later n hn).ne_member
      refine ⟨⟨same ▸ ho, rest.owned⟩, fun name base hm => ?_⟩
      rcases mem_cons.mp hm with hm | hm
      · cases hm
      · exact rest.script name base hm

theorem append_body (hs : Sound main h) (hns : ∀ n ∈ ns, n.isBody = true) : Sound main (ns ++ h) := by
  induction ns with
  | nil => exact hs
  | cons n ns ih =>
    have rest := ih fun n hn => hns n (.tail _ hn)
    have hb := hns n mem_cons_self
    exact rest.cons (by rintro _ _ rfl; cases hb) (by rintro _ _ rfl; cases hb)

end Sound

namespace Read

variable {σ : Type}

/-- A reader among the members of a class, with inner classes open. -/
structure Among (around : List (String × Nat)) (main : String) (s : Reader σ) : Prop where
  classes : s.classes = around.map Prod.fst ++ [main]
  sound : Sound main s.history
  told : Told [] s.history
  deep : Deep around

/-- A reader follows the indentation of the lines, or finds no member any more. -/
def Tracks (around : List (String × Nat)) (s : Reader σ) : Prop := Idle s ∨ Placed around s.level (standing s.history)

/-- The notes inside a member, as long as nothing is put down. -/
abbrev bodyNote (_ : String) (n : Note) : Prop := n.isBody = true

section

variable {around : List (String × Nat)} {main : String} {s s' : Reader σ} {w : Writer σ}

theorem Among.body (h : Among around main s) (hs : InMember bodyNote s s') : Among around main s' := by
  obtain ⟨ns, hh, hn⟩ := hs.noted
  refine ⟨hs.classes.trans h.classes, ?_, ?_, h.deep⟩
  · rw [hh]
    exact h.sound.append_body hn
  · rw [hh]
    refine h.told.append (fun n hm words hw => ?_) []
    have hb := hn n hm
    rw [hw] at hb
    cases hb

theorem Sound.noted (h : Sound main s.history) (hs : Noted bodyNote s s') : Sound main s'.history := by
  obtain ⟨ns, hh, hn⟩ := hs
  rw [hh]
  exact h.append_body hn

/-- The tables stay sound, also where an action fails. -/
abbrev Soundly {α : Type} (main : String) (x : ReadM σ α) (s : Reader σ) (Q : α → Reader σ → Prop) : Prop :=
  Goes x s Q fun s' => Sound main s'.history

/-- An action ends among the members that it started among. -/
abbrev StaysAmong {α : Type} (around : List (String × Nat)) (main : String) (x : ReadM σ α) (s : Reader σ) : Prop :=
  Soundly main x s fun _ s' => Among around main s' ∧ Tracks around s'

theorem Among.keeps {α : Type} {x : ReadM σ α} (h : Among around main s)
    (hp : Placed around s.level (standing s.history))
    (hx : Keeps (memberCourse σ bodyNote) x) :
    Soundly main x s fun _ s' => Among around main s' ∧ Placed around s'.level (standing s'.history) :=
  (hx.goes s).mono (fun _ _ hs => ⟨h.body hs, hs.descends.placed hp⟩) fun _ ⟨_, hs⟩ => Sound.noted h.sound hs

theorem Tracks.endLine (h : Among around main s) (hp : Tracks around s) :
    StaysAmong around main (endLine w) s := by
  rcases hp with idle | placed
  · refine (endLine_idle idle).mono (fun _ s' hs => ?_) fun s' hs => ?_
    · exact ⟨h.body hs.inMember, .inl (idle.of_still hs)⟩
    · exact Sound.noted h.sound hs.inMember.noted
  · exact (h.keeps placed (.endLine (memberCourse_laws (fun _ _ h => h) w))).mono
      (fun _ _ hs => ⟨hs.1, .inr hs.2⟩) fun _ h => h

/-! ## Classes -/

/-- What moves over tokens leave as it is. -/
structure Onward (s s' : Reader σ) : Prop where
  classes : s'.classes = s.classes
  history : s'.history = s.history
  level : s'.level = s.level

theorem Onward.next (s : Reader σ) : Onward s s.next := by
  unfold Reader.next
  split <;> exact ⟨rfl, rfl, rfl⟩

theorem Onward.trans {a b c : Reader σ} (h : Onward a b) (h' : Onward b c) : Onward a c :=
  ⟨h'.classes.trans h.classes, h'.history.trans h.history, h'.level.trans h.level⟩

theorem consume_onward (s : Reader σ) : Goes consume s (fun _ => Onward s) (Onward s) :=
  .of_eq (consume_apply s) ⟨(Onward.next s).classes, (Onward.next s).history, (Onward.next s).level⟩

theorem expect_onward (v : String) (s : Reader σ) : Goes (expect v) s (fun _ => Onward s) (Onward s) := by
  unfold Goes
  rw [expect_apply]
  split <;> rename_i h <;> split at h <;> cases h
  · exact .next s
  · exact ⟨rfl, rfl, rfl⟩

theorem nameAfter_onward (word default : String) (s : Reader σ) :
    Goes (nameAfter word default) s (fun _ => Onward s) (Onward s) := by
  refine .ifExpect _ (fun _ => ?_) fun _ => (⟨rfl, rfl, rfl⟩ : Onward s s)
  exact (consume_onward s.next).mono (fun _ _ h => (Onward.next s).trans h) fun _ h => (Onward.next s).trans h

theorem startClass_goes (name base : String) (isMain : Bool) (s : Reader σ) : Goes (startClass w name base isMain) s
      (fun _ s' => s'.classes = name :: s.classes ∧ s'.level = s.level ∧
        s'.history = (if isMain then .script name base else .opened name base) :: s.history)
      fun s' => s'.history = (if isMain then .script name base else .opened name base) :: s.history := by
  refine .bind_eq rfl <| .bind_eq rfl ?_
  refine Goes.bind_mono (.bind_eq rfl (ask_still w ..)) (fun _ h => h.history) fun _ s' h => ?_
  refine .bind_eq rfl <| (ask_still w _ s').mono (fun _ s'' h' => ?_) fun s'' h' => ?_
  · have both := h.trans h'
    exact ⟨both.classes, both.level, both.history⟩
  · exact (h.trans h').history

theorem endClass_goes {c : String} (s : Reader σ) (hc : s.classes = c :: (around.map Prod.fst ++ [main])) :
    Goes (endClass w) s (fun _ s' => s'.classes = around.map Prod.fst ++ [main] ∧ s'.level = s.level ∧
        s'.current = s.current ∧ s'.history = .closed :: s.history)
      fun s' => s'.history = s.history ∨ s'.history = .closed :: s.history := by
  refine .bind_eq rfl <| (ask_still w _ s).bind_mono (fun _ h => .inl h.history) fun _ s1 h1 => ?_
  refine .bind_eq rfl <| .bind_eq rfl ?_
  refine .bind_eq rfl <| (ask_still w ..).mono (fun _ s2 h2 => ?_) fun s2 h2 => ?_
  · refine ⟨?_, h2.level.trans h1.level, h2.current.trans h1.current, ?_⟩
    · rw [h2.classes]
      simp [h1.classes, hc]
    · rw [h2.history]
      simp [h1.history]
  · right
    rw [h2.history]
    simp [h1.history]

/-- The members of a class are read by `inner`: the reader is then among those of the class around it. -/
def ReadsClass (main : String) (inner : ReadM σ Unit) : Prop :=
  ∀ (around : List (String × Nat)) (s : Reader σ), Among around main s → Tracks around s →
    (∀ c ∈ around.head?, c.2 = s.level) →
    Goes inner s (fun _ s' => Among around main s' ∧ Tracks around.tail s') fun s' => Sound main s'.history

/-- **An inner class** starts one level deeper, and ends where its members end. -/
theorem innerClass_among {inner : ReadM σ Unit} (hi : ReadsClass main inner) (h : Among around main s)
    (hp : Placed around s.level (standing s.history)) (hhead : ∀ c ∈ around.head?, c.2 ≤ s.level) :
    StaysAmong around main (innerClass w inner) s := by
  have few : around.length ≤ s.level := by
    cases around with
    | nil => exact Nat.zero_le _
    | cons c rest => exact Nat.le_trans h.deep.1 (hhead c rfl)
  have sound {n : Note} {u : Reader σ} (hu : u.history = n :: s.history)
      (hr : ∀ owner e, n ≠ .recorded owner e) (hn : ∀ name base, n ≠ .script name base) :
      Sound main u.history := hu ▸ h.sound.cons hr hn
  refine (consume_onward s).bind_mono (fun _ hs => hs.history ▸ h.sound) fun name s1 h1 => ?_
  refine (nameAfter_onward _ _ s1).bind_mono (fun _ hs => (h1.trans hs).history ▸ h.sound) fun base s2 h2 => ?_
  have before := h1.trans h2
  refine (startClass_goes name base false s2).bind_mono (fun u hu => ?_) fun _ s3 h3 => ?_
  · rw [before.history] at hu
    exact sound hu nofun nofun
  obtain ⟨classes, level, history⟩ := h3
  refine (expect_onward _ s3).bind_mono (fun u hu => ?_) fun _ s4 h4 => .bind_eq rfl ?_
  · rw [hu.history, history, before.history]
    exact h.sound.cons nofun nofun
  have history4 : s4.history = .opened name base :: s.history := by
    rw [h4.history, history, before.history]
    rfl
  have level4 : s4.level = s.level := by rw [h4.level, level, before.level]
  have classes4 : s4.classes = name :: (around.map Prod.fst ++ [main]) := by
    rw [h4.classes, classes, before.classes, h.classes]
  have inside : Among ((name, s.level + 1) :: around) main
      { s4 with level := s4.level + 1, history := .deeper :: s4.history } := by
    refine ⟨classes4, ?_, ?_, Nat.lt_succ_of_le few, h.deep⟩
    · rw [history4]
      refine Sound.cons ?_ nofun nofun
      exact h.sound.cons nofun nofun
    · rw [history4]
      exact h.told
  have placed : Placed ((name, s.level + 1) :: around) (s4.level + 1) (standing (.deeper :: s4.history)) := by
    rw [level4, history4]
    exact hp.opened name base
  have own : ∀ c ∈ ((name, s.level + 1) :: around).head?, c.2 = s4.level + 1 := by
    rw [level4]
    rintro _ ⟨⟩
    rfl
  refine (hi _ _ inside (.inr placed) own).bind fun _ s5 h5 => ?_
  obtain ⟨among, tracks⟩ := h5
  refine (endClass_goes s5 among.classes).mono (fun _ s6 h6 => ?_) fun u hu => ?_
  · obtain ⟨classes, level, current, history⟩ := h6
    refine ⟨⟨classes, ?_, ?_, h.deep⟩, ?_⟩
    · rw [history]
      exact among.sound.cons nofun nofun
    · rw [history]
      exact among.told
    · rcases tracks with idle | placed
      · left
        obtain ⟨word, lineEnd, comment, longString⟩ := idle
        constructor <;> rw [current] <;> assumption
      · right
        rw [history, level]
        exact placed
  · rcases hu with hu | hu <;> rw [hu]
    · exact among.sound
    · exact among.sound.cons nofun nofun

/-! ## Members -/

/-- A reader that has just noted a member. -/
structure AtMember (around : List (String × Nat)) (main : String) (words : List String) (s : Reader σ) :
    Prop where
  classes : s.classes = around.map Prod.fst ++ [main]
  sound : Sound main s.history
  noted : ∃ h, s.history = .member words :: h ∧ Told [] h
  deep : Deep around
  placed : Placed around s.level (standing s.history)
  head : ∀ c ∈ around.head?, c.2 ≤ s.level

/-- A reader that has read a member, up to whether it is told. -/
structure AfterMember (around : List (String × Nat)) (main : String) (s s' : Reader σ) (more : Bool) :
    Prop where
  classes : s'.classes = around.map Prod.fst ++ [main]
  sound : Sound main s'.history
  noted : Told [] s'.history ∨ ∃ ns, s'.history = ns ++ s.history ∧ ∀ n ∈ ns, ∀ words, n ≠ .member words
  tracks : Tracks (if more = true then around else around.tail) s'

variable {words : List String}

section

variable (h : AtMember around main words s)

include h

theorem AtMember.onward (hs : Onward s s') : AtMember around main words s' := by
  obtain ⟨classes, sound, noted, deep, placed, head⟩ := h
  refine ⟨hs.classes.trans classes, ?_, ?_, deep, ?_, ?_⟩
  · rwa [hs.history]
  · rwa [hs.history]
  · rwa [hs.history, hs.level]
  · rwa [hs.level]

theorem AtMember.owned : Owned main (memberStanding s.history) s.className := by
  have own := h.placed.owned h.deep h.head main
  obtain ⟨before, hh, -⟩ := h.noted
  rw [← h.classes, hh] at own
  rw [hh]
  exact own

/-- A member that is no class is put down in the class that is being read. -/
theorem AtMember.done {x : ReadM σ Bool}
    (hx : Keeps (memberCourse σ Note.IsOf) x) (ht : Goes x s (fun b _ => b = true)) :
    Soundly main x s fun b s' => AfterMember around main s s' b := by
  have append {s' : Reader σ} (hn : Noted Note.IsOf s s') : Sound main s'.history := by
    obtain ⟨ns, hh, hn⟩ := hn
    rw [hh]
    exact h.sound.append hn h.owned
  refine ((hx.goes s).and ht).mono (fun b s' hs => ?_) fun s' ⟨⟨_, hs⟩, _⟩ => append hs
  obtain ⟨⟨classes, noted, descends⟩, rfl⟩ := hs
  refine ⟨classes.trans h.classes, append noted, ?_, .inr (descends.placed h.placed)⟩
  obtain ⟨ns, hh, hn⟩ := noted
  exact .inr ⟨ns, hh, fun n hm => (hn n hm).ne_member⟩

end

variable {n m : Nat}

theorem item_after (hi : ReadsClass main (bodyWithin w n m)) (static : Bool)
    (h : AtMember around main words s) (hw : s.current.value = "class" → isDeclaration words = false) :
    Soundly main (do item w (rules w n) static (bodyWithin w n m); endLine w; return true) s
      fun b s' => AfterMember around main s s' b := by
  by_cases hv : s.current.value = "class"
  · obtain ⟨classes, sound, ⟨before, hh, told⟩, deep, placed, head⟩ := h.onward (Onward.next s)
    have among : Among around main s.next := by
      refine ⟨classes, sound, ?_, deep⟩
      rw [hh]
      exact ⟨fun hd => absurd hd (by rw [hw hv]; decide), told⟩
    have read : StaysAmong around main (item w (rules w n) static (bodyWithin w n m)) s :=
      .ifExpect _ (fun _ => innerClass_among hi among placed head) (absurd hv)
    refine read.bind fun _ s1 h1 => (Tracks.endLine h1.1 h1.2).bind ?_
    intro _ s2 h2
    exact ⟨h2.1.classes, h2.1.sound, .inl h2.1.told, h2.2⟩
  · have M := memberCourse_memberLaws (P := Note.IsOf) (fun _ _ h => .inl h) (fun _ e => .inr ⟨e, rfl⟩) w
    have L := M.toLaws
    have read : item w (rules w n) static (bodyWithin w n m) s = plainItem w (rules w n) static s :=
      bind_ok ((expect_apply "class" s).trans (if_neg hv))
    have plain : Keeps (memberCourse σ Note.IsOf) (do plainItem w (rules w n) static; endLine w; return true) :=
      .bind L ((RulesKeep.rules L n).plainItem M.logic static) fun _ => .bind L (.endLine L) fun _ => .pure L _
    have more : Goes (do plainItem w (rules w n) static; endLine w; return true) s (fun b _ => b = true) :=
      (Goes.any _).bind fun _ _ _ => (Goes.any _).bind fun _ _ _ => rfl
    unfold Soundly Goes
    rw [bind_apply, read, ← bind_apply]
    exact h.done plain more

theorem AfterMember.of_next {more : Bool} (h : AfterMember around main s.next s' more) :
    AfterMember around main s s' more := by
  obtain ⟨classes, sound, noted, tracks⟩ := h
  rw [(Onward.next s).history] at noted
  exact ⟨classes, sound, noted, tracks⟩

theorem member_after (hi : ReadsClass main (bodyWithin w n m))
    (h : AtMember around main words s) (hw : words = s.firstWords) :
    Soundly main (member w (rules w n) (bodyWithin w n m)) s
      fun b s' => AfterMember around main s s' b := by
  refine .ifExpect _ (fun _ => ?_) fun _ => .expect _ (fun hs => ?_) fun hs => ?_
  · have next := Onward.next s
    refine .bind_eq rfl ?_
    refine ⟨next.classes.trans h.classes, ?_, .inr ⟨[.skipped], ?_, by simp⟩, .inr ?_⟩
    · show Sound main (.skipped :: s.next.history)
      rw [next.history]
      exact h.sound.cons nofun nofun
    · show .skipped :: s.next.history = _
      rw [next.history]
      rfl
    · show Placed around.tail s.next.level (standing (.skipped :: s.next.history))
      rw [next.history, next.level]
      exact h.placed.skipped
  · have class_word : s.next.current.value = "class" → isDeclaration words = false := by
      intro hc
      rw [hw, Reader.firstWords, hs]
      unfold Reader.next at hc
      cases ha : s.ahead with
      | nil => rfl
      | cons l ls =>
        rw [ha] at hc
        rw [take_succ_cons, map_cons, show l.token.value = "class" from hc]
        rfl
    exact (item_after hi true (h.onward (Onward.next s)) class_word).mono (fun _ _ ha => ha.of_next) fun _ h => h
  · refine item_after hi false h fun hc => ?_
    rw [hw, Reader.firstWords, hc]
    rfl

theorem member_told (s : Reader σ) : Goes (member w (rules w n) (bodyWithin w n m)) s
      (fun _ s' => isDeclaration s.firstWords = true → Puts s.firstWords s s') := by
  have M := memberCourse_memberLaws (P := Note.IsOf) (fun _ _ h => .inl h) (fun _ e => .inr ⟨e, rfl⟩) w
  by_cases hd : isDeclaration s.firstWords = true
  · exact (member_puts M (RulesKeep.rules M.toLaws n) hd).mono (fun _ _ h _ => h) fun _ h => h
  · exact (Goes.any _).mono (fun _ _ _ h => absurd h hd) fun _ h => h

/-- **A member** is put down in the class that encloses it, or opens a class, or ends one. -/
theorem classMember_among (hi : ReadsClass main (bodyWithin w n m)) (h : Among around main s)
    (hp : Tracks around s) (hhead : ∀ c ∈ around.head?, c.2 ≤ s.level) :
    Soundly main (classMember w (rules w n) (bodyWithin w n m)) s
      fun b s' => Among around main s' ∧ Tracks (if b = true then around else around.tail) s' := by
  refine .bind_eq rfl <| .bind_eq rfl ?_
  have sound : Sound main (.member s.firstWords :: s.history) := h.sound.cons nofun nofun
  rcases hp with idle | placed
  · have here : Idle { s with history := .member s.firstWords :: s.history } :=
      { idle with }
    refine (member_idle here _).mono (fun b s' hs => ?_) fun s' hs => hs.history ▸ sound
    obtain ⟨rfl, hs⟩ := hs
    refine ⟨⟨hs.classes.trans h.classes, hs.history ▸ sound, ?_, h.deep⟩, .inl (here.of_still hs)⟩
    rw [hs.history]
    exact ⟨fun hd => absurd rfl (idle.word _ (memberWord_of_isDeclaration hd)), h.told⟩
  · have here : AtMember around main s.firstWords { s with history := .member s.firstWords :: s.history } :=
      ⟨h.classes, sound, ⟨s.history, rfl, h.told⟩, h.deep, placed, hhead⟩
    refine ((member_after hi here rfl).and (member_told _)).mono (fun b s' hs => ?_) fun s' hs => hs.1
    obtain ⟨⟨classes, sound', noted, tracks⟩, puts⟩ := hs
    refine ⟨⟨classes, sound', ?_, h.deep⟩, tracks⟩
    rcases noted with told | ⟨ns, hh, hn⟩
    · exact told
    · rw [hh]
      refine h.told.member hn [] fun hd => .inr ?_
      obtain ⟨ns', owner, e, hh', he, hd⟩ := puts hd
      rw [append_cancel_right (hh.symm.trans hh')]
      exact ⟨owner, e, he, hd⟩

/-! ## Scripts -/

theorem classMember_idle : Goes (classMember w (rules w n) (bodyWithin w n m)) s
      (fun _ s' => s'.moves = s.moves → Idle s') := by
  refine .bind_eq rfl <| .bind_eq rfl ?_
  by_cases idle : Idle s
  · have here : Idle { s with history := .member s.firstWords :: s.history } :=
      { idle with }
    exact (member_idle here _).mono (fun _ _ hs _ => here.of_still hs.2) fun _ _ => trivial
  · have here : ¬ Idle { s with history := .member s.firstWords :: s.history } := fun h =>
      idle { h with }
    refine (member_moves here).mono (fun _ s' hs same => ?_) fun _ h => h
    exact absurd same (Nat.ne_of_gt hs)

theorem Tracks.left {level : Nat} (h : Tracks around s) (hhead : ∀ c ∈ around.head?, c.2 = level)
    (hl : s.level < level) : Tracks around.tail s := by
  rcases h with idle | placed
  · exact .inl idle
  · cases around with
    | nil => exact .inr placed
    | cons c rest =>
      have own := hhead c rfl
      exact .inr (placed.left (own ▸ hl))

/-- **The members of a class** are put down in it, and the reader is then among those of the class around
it. By induction on how deep classes may be nested, and on the rounds. -/
theorem classBodyWithin_among (main : String) (n m : Nat) : ReadsClass main (bodyWithin w n m) := by
  induction m with
  | zero => exact fun _ s h _ _ => h.sound
  | succ m ih =>
    intro around s h hp hhead
    refine .bind_eq rfl <| .bind_eq rfl ?_
    generalize s.level = level at hhead ⊢
    -- a reader that did not move in the last round is idle
    have loop : ∀ (rounds : Nat) (last : Option Nat) (s : Reader σ), Among around main s →
        Tracks around s → (last = some s.moves → Idle s) →
        Soundly main (moveRounds (do return level ≤ (← get).level)
          (fun _ => classRound w (rules w n) (bodyWithin w n m)) rounds last ()) s
          fun _ s' => Among around main s' ∧ Tracks around.tail s' := by
      intro rounds
      induction rounds with
      | zero => exact fun _ s h _ _ => h.sound
      | succ rounds ih' =>
        intro last s h hp hlast
        refine .bind_eq rfl ?_
        by_cases stuck : last = some s.moves
        · rw [if_pos stuck]
          exact ⟨h, .inl (hlast stuck)⟩
        rw [if_neg stuck]
        refine .bind_eq rfl ?_
        by_cases hl : level ≤ s.level
        · rw [if_pos (by simpa using hl)]
          refine .bind_eq rfl ?_
          have member := classMember_among ih h hp fun c hc => hhead c hc ▸ hl
          have read : Soundly main (classRound w (rules w n) (bodyWithin w n m)) s
              fun step s' => Among around main s' ∧
                (step = .yield () ∧ Tracks around s' ∧ (s'.moves = s.moves → Idle s') ∨
                  step = .done () ∧ Tracks around.tail s') := by
            refine (member.and classMember_idle).bind_mono (fun _ h => h.1) fun more s' hs => ?_
            obtain ⟨⟨among, tracks⟩, idle⟩ := hs
            cases more with
            | true => exact ⟨among, .inl ⟨rfl, tracks, idle⟩⟩
            | false => exact ⟨among, .inr ⟨rfl, tracks⟩⟩
          refine read.bind ?_
          rintro _ s' ⟨among, ⟨rfl, tracks, idle⟩ | ⟨rfl, tracks⟩⟩
          · exact ih' (some s.moves) s' among tracks fun same => idle (Option.some.inj same).symm
          · exact ⟨among, tracks⟩
        · rw [if_neg (by simpa using hl)]
          exact ⟨h, hp.left hhead (Nat.lt_of_not_le hl)⟩
    exact loop _ none s h hp nofun

/-- After a line that cannot be read, the script goes on outside of all inner classes. -/
theorem recover_among (h : Among [] main s) :
    StaysAmong [] main (recover w (rules w n)) s := by
  have L := memberCourse_laws (P := bodyNote) (fun _ _ h => h) w
  have body {α : Type} {x : ReadM σ α} {u : Reader σ} (hu : Among [] main u)
      (hx : Keeps (memberCourse σ bodyNote) x) :
      Goes x u (fun _ u' => Among [] main u') fun u' => Sound main u'.history :=
    (hx.goes u).mono (fun _ _ hs => hu.body hs) fun _ ⟨_, hs⟩ => Sound.noted hu.sound hs
  refine (body h (.current L)).bind fun t s1 h1 => ?_
  refine (body h1 (L.core.valuesUpTo (k := 0) rfl fun h => by rw [h])).bind fun dropped s2 h2 => ?_
  refine (body h2 (.current L)).bind fun t' s3 h3 => ?_
  refine (body h3 (.consume L)).bind fun v s4 h4 => ?_
  refine (body h4 (L.core.levelOf (k := 0) _ v)).bind fun level s5 h5 => .bind_eq rfl ?_
  have reported (message : String) (u : Reader σ) : Goes (report w message) u (fun _ => Onward u) (Onward u) :=
    (ask_still w _ u).bind_mono (fun _ h => { h with }) fun _ u' h =>
      ({ h with } : Onward u { u' with desk := u'.desk.print _ })
  refine (reported _ _).bind_mono (fun u hu => ?_) fun _ s6 h6 => .bind_eq rfl ?_
  · rw [hu.history]
    exact h5.sound.cons nofun nofun
  have again : Among [] main { s6 with level := level - 1 } := by
    refine ⟨h6.classes.trans h5.classes, ?_, ?_, trivial⟩
    · show Sound main s6.history
      rw [h6.history]
      exact h5.sound.cons nofun nofun
    · show Told [] s6.history
      rw [h6.history]
      exact h5.told
  have placed : Placed [] (level - 1) (standing s6.history) := by
    rw [h6.history]
    exact .panicked _ _
  refine (again.keeps placed ((RulesKeep.rules L n).blocked L.logic)).bind fun _ s7 h7 => ?_
  exact ⟨h7.1, .inr h7.2⟩

/-- **The members of a script.** -/
theorem scriptBody_among (h : Among [] main s) (hp : Tracks [] s) :
    Soundly main (scriptBody w (rules w n)) s fun _ s' => Among [] main s' := by
  have round (tries : Nat) (s : Reader σ) (h : Among [] main s) (hp : Tracks [] s) :
      StaysAmong [] main (scriptRound w (rules w n) tries) s := by
    unfold scriptRound
    split
    · have members : StaysAmong [] main (classBody w (rules w n)) s :=
        .bind_eq rfl (classBodyWithin_among main n _ [] s h hp nofun)
      refine members.bind fun _ s1 h1 => .bind_eq rfl ?_
      split
      · refine .bind_eq rfl ?_
        obtain ⟨⟨classes, sound, told, deep⟩, tracks⟩ := h1
        exact ⟨⟨classes, sound, told, deep⟩, tracks.imp (fun i => { i with }) id⟩
      · exact (recover_among h1.1).bind fun _ _ h => h
    · exact ⟨h, hp⟩
  have loop : ∀ (rounds : Nat) (last : Option Nat) (tries : Nat) (s : Reader σ), Among [] main s →
      Tracks [] s → Soundly main (moveRounds (pure true) (scriptRound w (rules w n)) rounds last tries) s
        fun _ s' => Among [] main s' := by
    intro rounds
    induction rounds with
    | zero => exact fun _ _ s h _ => h.sound
    | succ rounds ih =>
      intro last tries s h hp
      refine .bind_eq rfl ?_
      split
      · exact h
      · refine .bind_eq rfl <| .bind_eq rfl <| (round tries s h hp).bind fun step s' hs => ?_
        cases step with
        | done tries => exact hs.1
        | yield tries => exact ih _ tries s' hs.1 hs.2
  exact Goes.bind (.bind_eq rfl (loop _ none 0 s h hp)) fun _ _ h => h

/-- A reader before the script's own class. -/
structure BeforeScript (s : Reader σ) : Prop where
  classes : s.classes = []
  body : ∀ n ∈ s.history, n.isBody = true
  placed : Placed [] s.level (standing s.history)

theorem BeforeScript.sound (h : BeforeScript s) (main : String) : Sound main s.history := by
  have none : Sound main [] := ⟨trivial, nofun⟩
  have whole := none.append_body h.body
  rwa [append_nil] at whole

theorem BeforeScript.keeps {α : Type} {x : ReadM σ α} (h : BeforeScript s) (hx : Keeps (memberCourse σ bodyNote) x) :
    Goes x s (fun _ s' => BeforeScript s') fun s' => ∃ main, Sound main s'.history := by
  refine (hx.goes s).mono (fun _ s' hs => ?_) fun s' ⟨_, hs⟩ => ⟨"", Sound.noted (h.sound "") hs⟩
  obtain ⟨ns, hh, hn⟩ := hs.noted
  refine ⟨hs.classes.trans h.classes, fun n hm => ?_, hs.descends.placed h.placed⟩
  rw [hh] at hm
  exact (mem_append.mp hm).elim (hn n) (h.body n)

/-- The script's own class is the only one that is open when it starts. -/
theorem BeforeScript.among {name base : String} (h : BeforeScript s) (hc : s'.classes = name :: s.classes)
    (hl : s'.level = s.level) (hh : s'.history = .script name base :: s.history) :
    Among [] name s' ∧ Tracks [] s' := by
  have told : Told [] s.history := by
    have none : Told [] [] := trivial
    have whole : Told [] (s.history ++ []) := none.append (fun n hm words hw => by
      have hb := h.body n hm
      rw [hw] at hb
      cases hb) []
    rwa [append_nil] at whole
  refine ⟨⟨by rw [hc, h.classes]; rfl, ⟨?_, fun n b hm => ?_⟩, ?_, trivial⟩, .inr ?_⟩
  · rw [hh]
    exact (h.sound name).owned
  · rw [hh] at hm
    rcases mem_cons.mp hm with hm | hm
    · exact (Note.script.inj hm).1
    · cases h.body _ hm
  · rw [hh]
    exact told
  · rw [hh, hl]
    exact h.placed

theorem header_among (name : String) (hc : s.classes = []) (hh : s.history = []) (hl : s.level = 0) :
    Goes (header w name) s (fun _ s' => ∃ main, Among [] main s' ∧ Tracks [] s')
      fun s' => ∃ main, Sound main s'.history := by
  have L := memberCourse_laws (fun _ _ h => h) w
  have start : BeforeScript { s with history := .line 0 :: s.history } := by
    refine ⟨hc, ?_, ?_, ?_⟩ <;> rw [hh]
    · simp [Note.isBody]
    · simp [hl]
    · exact .nil
  refine .bind_eq rfl <| (start.keeps (.endLine L)).bind fun _ s1 h1 => ?_
  refine (h1.keeps (.expectPair L _ _)).bind fun isTool s2 h2 => .bind_eq rfl ?_
  have tool : BeforeScript { s2 with isTool := isTool } := ⟨h2.classes, h2.body, h2.placed⟩
  refine (tool.keeps (.endLine L)).bind fun _ s3 h3 => ?_
  refine (h3.keeps (.lineName L _ _)).bind fun name s4 h4 => ?_
  refine (h4.keeps (.lineName L _ _)).bind fun base s5 h5 => ?_
  refine (h5.keeps (.nameAfter L _ _)).bind fun name s6 h6 => ?_
  have started := startClass_goes (w := w) name base true s6
  refine started.bind_mono (fun s7 hh => ⟨name, ?_⟩) fun _ s7 h7 => ?_
  · let s8 := { s6 with classes := name :: s6.classes, history := s7.history }
    have own : Among [] name s8 ∧ Tracks [] s8 := h6.among rfl rfl hh
    exact own.1.sound
  · obtain ⟨among, tracks⟩ := h6.among h7.1 h7.2.1 h7.2.2
    exact (Tracks.endLine among tracks).mono (fun _ _ h => ⟨name, h⟩) fun _ h => ⟨name, h⟩

/-- **In every script, each member is put down in the class that encloses it**, and each declaration is put
down if the script is read to its end. -/
theorem script_sound (name : String) (hc : s.classes = []) (hh : s.history = []) (hl : s.level = 0) :
    Goes (script w (rules w n) name) s (fun _ s' => ∃ main, Sound main s'.history ∧ Told [] s'.history)
      fun s' => ∃ main, Sound main s'.history := by
  refine (header_among name hc hh hl).bind fun _ s1 h1 => ?_
  obtain ⟨main, among, tracks⟩ := h1
  refine (scriptBody_among among tracks).bind_mono (fun _ h => ⟨main, h⟩) fun _ s2 h2 => ?_
  refine (ask_still w _ s2).mono (fun _ s3 h3 => ⟨main, ?_⟩) fun s3 h3 => ⟨main, ?_⟩
  · rw [h3.history]
    exact ⟨h2.sound, h2.told⟩
  · rw [h3.history]
    exact h2.sound

end

end Read

end GdScribe
