import GdScribe.Proofs.Classes.Inside

/-!
# What is put down for a member

A member that starts like a declaration is put down in the tables of its class before the next one starts.

* `isDeclaration`: how such a member starts, and `Declares`: what may be put down for it.
* `Told`: a history in which all that was declared is put down.

Principal result: `member_puts`.
-/

namespace GdScribe

open List

/-! ## Histories in which all members are put down -/

/-- Whether a member that starts with some words is a declaration. -/
def declaresNow : List String → Bool
  | "func" :: _ :: _ | "signal" :: _ :: _ | "enum" :: _ => true
  | "var" :: name :: _ | "const" :: name :: _ => !name.isEmpty
  | _ => false

/-- Whether a member that starts with some words, maybe a `static` first, is a declaration. -/
def isDeclaration : List String → Bool
  | "static" :: words => declaresNow words
  | words => declaresNow words

theorem declaresNow_cases {words : List String} (h : declaresNow words = true) :
    (∃ name rest, words = "func" :: name :: rest) ∨ (∃ name rest, words = "signal" :: name :: rest) ∨
      (∃ rest, words = "enum" :: rest) ∨
      ∃ k name rest, (k = "var" ∨ k = "const") ∧ name ≠ "" ∧ words = k :: name :: rest := by
  unfold declaresNow at h
  split at h
  · exact .inl ⟨_, _, rfl⟩
  · exact .inr (.inl ⟨_, _, rfl⟩)
  · exact .inr (.inr (.inl ⟨_, rfl⟩))
  · exact .inr (.inr (.inr ⟨_, _, _, .inl rfl, by simpa using h, rfl⟩))
  · exact .inr (.inr (.inr ⟨_, _, _, .inr rfl, by simpa using h, rfl⟩))
  · cases h

theorem memberWord_of_isDeclaration {word : String} {rest : List String}
    (h : isDeclaration (word :: rest) = true) : word ∈ Read.memberWords := by
  unfold isDeclaration at h
  split at h
  case h_1 hw =>
    rw [(cons.inj hw).1]
    decide
  case h_2 =>
    rcases declaresNow_cases h with ⟨_, _, hw⟩ | ⟨_, _, hw⟩ | ⟨_, hw⟩ | ⟨k, _, _, hk, -, hw⟩
    all_goals rw [(cons.inj hw).1]
    · decide
    · decide
    · decide
    · rcases hk with rfl | rfl <;> decide

/-- An entry is one that is put down for a member that starts with some words. -/
inductive Declares : List String → ClassEntry → Prop
  | method (name : String) (rest : List String) (returns : Ty) :
    Declares ("func" :: name :: rest) (.method name returns)
  | signal (name : String) (rest : List String) (type : Ty) :
    Declares ("signal" :: name :: rest) (.member name type)
  | variable (name : String) (rest : List String) (type : Ty) :
    Declares ("var" :: name :: rest) (.member name type)
  | constant (name : String) (rest : List String) (type : Ty) :
    Declares ("const" :: name :: rest) (.member name type)
  | enumeration (rest names : List String) (type : Ty) :
    Declares ("enum" :: rest) (.enumerators names type)
  | static {words : List String} {e : ClassEntry} (h : Declares words e) : Declares ("static" :: words) e

/-- Every member of a history that is a declaration has been put down before the next one; `since` is
what was put down after the history. -/
def Told (since : List ClassEntry) : List Note → Prop
  | [] => True
  | .recorded _ e :: h => Told (e :: since) h
  | .member words :: h => (isDeclaration words = true → ∃ e ∈ since, Declares words e) ∧ Told [] h
  | _ :: h => Told since h

variable {h ns : List Note}

theorem Told.mono : ∀ {before after : List ClassEntry}, Told before h → before ⊆ after → Told after h := by
  induction h with
  | nil => intros; trivial
  | cons n h ih =>
    intro before after ht hs
    cases n with
    | recorded owner e =>
      have more : e :: before ⊆ e :: after := cons_subset_cons e hs
      exact ih (show Told (e :: before) h from ht) more
    | member words =>
      refine ⟨fun hw => ?_, ht.2⟩
      obtain ⟨e, he, hd⟩ := ht.1 hw
      exact ⟨e, hs he, hd⟩
    | _ => exact ih ht hs

theorem Note.IsOf.ne_member {n : Note} {owner : String} (h : n.IsOf owner) (words : List String) :
    n ≠ .member words := by
  rintro rfl
  rcases h with h | ⟨e, he⟩
  · cases h
  · cases he

theorem Told.append (ht : Told [] h) (hns : ∀ n ∈ ns, ∀ words, n ≠ .member words) :
    ∀ since, Told since (ns ++ h) := by
  induction ns with
  | nil => exact fun _ => ht.mono (nil_subset _)
  | cons n ns ih =>
    intro since
    have rest := ih fun n hn => hns n (.tail _ hn)
    cases n with
    | member words => exact absurd rfl (hns _ mem_cons_self words)
    | _ => exact rest _

theorem Told.member {words : List String} (ht : Told [] h) (hns : ∀ n ∈ ns, ∀ words, n ≠ .member words) : ∀ since,
      (isDeclaration words = true → (∃ e ∈ since, Declares words e) ∨
        ∃ owner e, .recorded owner e ∈ ns ∧ Declares words e) →
      Told since (ns ++ .member words :: h) := by
  induction ns with
  | nil =>
    intro since hw
    refine ⟨fun hd => ?_, ht⟩
    rcases hw hd with he | ⟨_, _, he, _⟩
    · exact he
    · cases he
  | cons n ns ih =>
    intro since hw
    have rest := ih fun n hn => hns n (.tail _ hn)
    cases n with
    | member words => exact absurd rfl (hns _ mem_cons_self words)
    | recorded owner e =>
      refine rest (e :: since) fun hd => ?_
      rcases hw hd with ⟨e', he, hd⟩ | ⟨owner', e', he, hd⟩
      · exact .inl ⟨e', .tail _ he, hd⟩
      · rcases mem_cons.mp he with he | he
        · cases he
          exact .inl ⟨e, .head _, hd⟩
        · exact .inr ⟨owner', e', he, hd⟩
    | _ =>
      refine rest since fun hd => ?_
      rcases hw hd with he | ⟨owner, e, he, hd⟩
      · exact .inl he
      · rcases mem_cons.mp he with he | he
        · cases he
        · exact .inr ⟨owner, e, he, hd⟩

/-! ## Declarations are put down -/

namespace Read

variable {σ α β : Type}

/-- On the way from one state to another, something was put down that is declared by some words. -/
def Puts (words : List String) (s s' : Reader σ) : Prop :=
  ∃ ns owner e, s'.history = ns ++ s.history ∧ .recorded owner e ∈ ns ∧ Declares words e

/-- From a state, an action puts down something that is declared by some words, or fails. -/
abbrev Tells (words : List String) (x : ReadM σ α) (s : Reader σ) : Prop :=
  Goes x s (fun _ => Puts words s)

section puts

variable {words : List String} {s : Reader σ} {w : Writer σ} {r : Rules σ}

theorem Goes.any (x : ReadM σ α) : Goes x s (fun _ _ => True) := by
  unfold Goes
  cases x s <;> trivial

variable {x : ReadM σ α} {f : α → ReadM σ β} {rest : List String} {name : String} {inner : ReadM σ Unit}

theorem Goes.puts_after {Q : α → Prop}
    (hx : Keeps (memberCourse σ Note.IsOf) x) (hQ : Goes x s (fun a _ => Q a))
    (hf : ∀ a s', Q a → Tells words (f a) s') : Tells words (x >>= f) s := by
  refine ((hx.goes s).and hQ).bind_mono (fun _ _ => trivial) fun a s' h => ?_
  obtain ⟨⟨-, ⟨ns, hh, -⟩, -⟩, ha⟩ := h
  refine (hf a s' ha).mono (fun _ s'' hp => ?_) fun _ h => h
  obtain ⟨ns', owner, e, hh', he, hd⟩ := hp
  exact ⟨ns' ++ ns, owner, e, by rw [hh', hh, append_assoc], mem_append_left _ he, hd⟩

theorem Goes.puts_then (hx : Tells words x s) (hf : ∀ a, Keeps (memberCourse σ Note.IsOf) (f a)) :
    Tells words (x >>= f) s := by
  refine hx.bind fun a s' hp => ?_
  obtain ⟨ns, owner, e, hh, he, hd⟩ := hp
  refine ((hf a).goes s').mono (fun _ s'' h => ?_) fun _ _ => trivial
  obtain ⟨-, ⟨ns', hh', -⟩, -⟩ := h
  exact ⟨ns' ++ ns, owner, e, by rw [hh', hh, append_assoc], mem_append_right _ he, hd⟩

theorem Puts.of_next {s' : Reader σ} (h : Puts words s.next s') : Puts words s s' := by
  obtain ⟨ns, owner, e, hh, he, hd⟩ := h
  exact ⟨ns, owner, e, by rw [hh, next_history], he, hd⟩

/-- The first two words are those of the token in view and of the next one. -/
theorem words_of_prefix {v u : String} (h : v :: u :: rest <+: s.firstWords) :
    s.current.value = v ∧ s.next.current.value = u := by
  unfold Reader.firstWords at h
  unfold Reader.next
  cases ha : s.ahead with
  | nil => simp [ha] at h
  | cons l ls =>
    simp only [ha, take_succ_cons, map_cons, cons_prefix_cons] at h
    exact ⟨h.1.symm, h.2.1.symm⟩

theorem firstWords_next {v : String} (h : s.firstWords = v :: rest) : rest <+: s.next.firstWords := by
  unfold Reader.firstWords at h ⊢
  unfold Reader.next
  rw [← (cons.inj h).2]
  cases ha : s.ahead with
  | nil => exact nil_prefix
  | cons l ls =>
    cases ls with
    | nil => simp
    | cons k ks => simp

theorem record_puts {e : ClassEntry} (hd : Declares words e) : Tells words (record e) s :=
  .of_eq rfl ⟨[.recorded s.className e], s.className, e, rfl, .head _, hd⟩

variable (M : (memberCourse σ Note.IsOf).MemberLaws w) (H : RulesKeep (memberCourse σ Note.IsOf) r)

include M in
theorem Goes.puts_consume {f : String → ReadM σ β} (hf : ∀ s', Tells words (f s.current.value) s') :
    Tells words (consume >>= f) s :=
  .puts_after (Q := (· = s.current.value)) (.consume M.toLaws) (.of_eq (consume_apply s) rfl) fun _ s' h => h ▸ hf s'

theorem Goes.puts_skip (hx : Keeps (memberCourse σ Note.IsOf) x) (hf : ∀ a s', Tells words (f a) s') :
    Tells words (x >>= f) s :=
  .puts_after hx (.any x) fun a s' _ => hf a s'

include M H

theorem method_puts (static : Bool) (hd : ∀ t, Declares words (.method s.current.value t)) :
    Tells words (method w r static) s := by
  have L := M.toLaws
  refine .puts_consume M fun _ => .puts_skip (.expect L _) fun _ _ => ?_
  refine .puts_skip (H.paramDefinitions L.logic (.expect L _)) fun _ _ =>
    .puts_skip (L.logic.learnAll (k := 0) _) fun _ _ => ?_
  refine .puts_skip (.typeAfter L _) fun _ _ => .puts_skip (.expect L _) fun _ _ => ?_
  refine .puts_skip (L.onPage (H.blocked L.logic)) fun _ _ => .puts_then (record_puts (hd _)) fun _ => ?_
  exact .get_bind fun _ => M.askMember _ rfl

theorem signal_puts (hd : ∀ t, Declares words (.member s.current.value t)) : Tells words (signal w r) s := by
  have L := M.toLaws
  refine .puts_consume M fun _ => .puts_then (record_puts (hd _)) fun _ => ?_
  refine .bind L (.ifExpect L _ ?_ (.pure L _)) fun _ => M.askMember _ rfl
  exact .bind L (H.paramDefinitions L.logic (.expect L _)) fun _ => .pure L _

theorem enumeration_puts (hd : ∀ names t, Declares words (.enumerators names t)) :
    Tells words (enumeration w r) s := by
  have L := M.toLaws
  refine .puts_skip (.ifKind L _ (.consume L) (.pure L _)) fun _ _ => .puts_skip (.expect L _) fun _ _ => ?_
  exact .puts_skip (H.paramDefinitions L.logic (.expect L _)) fun _ _ => .puts_then (record_puts (hd ..)) fun _ =>
    M.askMember _ rfl

omit M H in
theorem declaration_name (hn : name ≠ "") :
    Goes (declaration w r name) s (fun d _ => d.name = name) := by
  have named : nameOr name s = .ok name s := by
    unfold nameOr
    rw [if_neg (by simpa using hn)]
    rfl
  have skip {α β : Type} {x : ReadM σ α} {f : α → ReadM σ β} {s : Reader σ} {Q : β → Reader σ → Prop}
      (hf : ∀ a s', Goes (f a) s' Q) : Goes (x >>= f) s Q :=
    (Goes.any x).bind fun a s' _ => hf a s'
  refine .bind_eq named <| skip fun _ _ => skip fun _ _ => skip fun _ _ => skip fun _ _ => ?_
  refine .ifExpect _ (fun _ => skip fun _ _ => ?_) fun _ => ?_
  · exact rfl
  · exact rfl

theorem declareProperty_puts (flag : PropertyFlag) (hn : name ≠ "") (hd : ∀ t, Declares words (.member name t)) :
    Tells words (declareProperty w r name flag) s := by
  have L := M.toLaws
  refine .puts_after (H.declaration L.logic name) (declaration_name hn) fun d _ h => ?_
  exact .puts_then (record_puts (h ▸ hd _)) fun _ => H.writeProperty M.logic (M.logic.property_refl _) _

theorem markedProperty_puts (static : Bool) (a : Markers)
    (hk : s.current.value = "var" ∨ s.current.value = "const") (hn : s.next.current.value ≠ "")
    (hd : ∀ t, Declares words (.member s.next.current.value t)) : Tells words (markedProperty w r static a) s := by
  have declared (flag : PropertyFlag) : Tells words (do
      let name ← consume
      writeMarker w name a.last
      declareProperty w r name flag) s.next :=
    .puts_consume M fun _ => .puts_skip (M.logic.writeMarker (k := 0) _ (M.logic.markers_refl a).last) fun _ _ =>
    declareProperty_puts M H flag hn hd
  refine .expect _ (fun _ => ?_) fun constant => ?_
  · exact .bind_eq rfl ((declared _).mono (fun _ _ h => h.of_next) fun _ h => h)
  · refine .ifExpect _ (fun _ => (declared _).mono (fun _ _ h => h.of_next) fun _ h => h) fun other => ?_
    rcases hk with hk | hk
    · exact absurd hk other
    · exact absurd hk constant

/-- **A member that is a declaration is put down.** -/
theorem item_puts (static : Bool) (hw : words <+: s.firstWords) (hd : declaresNow words = true) :
    Tells words (item w r static inner) s := by
  have miss {v : String} {x y : ReadM σ Unit} (hv : s.current.value ≠ v)
      (hy : Tells words y s) :
      Tells words (expect v >>= fun f => if f = true then x else y) s :=
    .ifExpect v (fun h => absurd h hv) fun _ => hy
  have hit {v : String} {x y : ReadM σ Unit} (hv : s.current.value = v)
      (hx : Tells words x s.next) :
      Tells words (expect v >>= fun f => if f = true then x else y) s :=
    .ifExpect v (fun _ => hx.mono (fun _ _ h => h.of_next) fun _ h => h) fun h => absurd hv h
  rcases declaresNow_cases hd with ⟨name, rest, rfl⟩ | ⟨name, rest, rfl⟩ | ⟨rest, rfl⟩ | ⟨k, name, rest, hk, hn, rfl⟩
  · obtain ⟨first, second⟩ := words_of_prefix hw
    iterate 2 refine miss (by rw [first]; decide) ?_
    exact hit first (method_puts M H static fun t => second ▸ .method name rest t)
  · obtain ⟨first, second⟩ := words_of_prefix hw
    iterate 3 refine miss (by rw [first]; decide) ?_
    exact hit first (signal_puts M H fun t => second ▸ .signal name rest t)
  · have first : s.current.value = "enum" := (cons_prefix_cons.mp hw).1.symm
    refine miss (by rw [first]; decide) <| hit first ?_
    exact enumeration_puts M H fun names t => .enumeration rest names t
  · obtain ⟨first, second⟩ := words_of_prefix hw
    have other {v : String} (hv : v ≠ "var") (hc : v ≠ "const") : s.current.value ≠ v := by
      rw [first]
      rcases hk with rfl | rfl
      · exact hv.symm
      · exact hc.symm
    iterate 4 refine miss (other (by decide) (by decide)) ?_
    refine .bind_eq (markers_skips (other (by decide) (by decide))) ?_
    refine markedProperty_puts M H static {} (first ▸ hk) (second ▸ hn) fun t => ?_
    rw [second]
    rcases hk with rfl | rfl
    · exact .variable name rest t
    · exact .constant name rest t

omit M H in
theorem Puts.static {s' : Reader σ} (h : Puts words s.next s') : Puts ("static" :: words) s s' := by
  obtain ⟨ns, owner, e, hh, he, hd⟩ := h.of_next
  exact ⟨ns, owner, e, hh, he, .static hd⟩

theorem member_puts (hd : isDeclaration s.firstWords = true) : Tells s.firstWords (member w r inner) s := by
  have L := M.toLaws
  have ending {words : List String} {s : Reader σ} {x : ReadM σ Unit}
      (hx : Tells words x s) :
      Tells words (do x; endLine w; return true) s :=
    .puts_then hx fun _ => .bind L (.endLine L) fun _ => .pure L _
  unfold isDeclaration at hd
  split at hd
  case h_1 words hw =>
    have first : s.current.value = "static" := (cons.inj hw).1
    refine .ifExpect _ (fun h => by rw [first] at h; exact absurd h nofun) fun _ => ?_
    refine .expect _ (fun _ => ?_) fun h => absurd first h
    rw [hw]
    exact (ending (item_puts M H true (firstWords_next hw) hd)).mono (fun _ _ h => h.static) fun _ h => h
  case h_2 hw =>
    have first : s.current.value ≠ "pass" := by
      rintro h
      unfold Reader.firstWords at hd
      rw [h] at hd
      cases hd
    refine .ifExpect _ (fun h => absurd h first) fun _ => .expect _ (fun h => ?_) fun _ => ?_
    · exact absurd (congrArg (· :: _) h) (hw _)
    · exact ending (item_puts M H false prefix_rfl hd)

end puts

end Read

end GdScribe
