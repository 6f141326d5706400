import GdScribe.Proofs.Classes.Started
import GdScribe.Proofs.Target.Discreet

/-!
# What a run may change in a class table

A run starts classes and adds to the tables of the classes that it is in. All other classes stay as they
are, and nothing is taken away.

* `Writer.Minds`: a target that changes no class but the one that it is told to be in. C++ adds methods
  to it, the other targets leave the class table alone.

Principal result: `run_frames_classes`.
-/

namespace GdScribe

open List
open Read (endState)
open Target (Settings)

variable {σ α : Type}

/-! ## Tables -/

/-- A class of which no name is lost, and whose base and constants stay. -/
structure ClassInfo.Grows (c c' : ClassInfo) : Prop where
  base : c'.base = c.base
  constants : c'.constants = c.constants
  members : c.members.keys ⊆ c'.members.keys
  methods : c.methods.keys ⊆ c'.methods.keys
  enums : c.enums.keys ⊆ c'.enums.keys

theorem ClassInfo.Grows.refl (c : ClassInfo) : c.Grows c :=
  ⟨rfl, rfl, Subset.refl _, Subset.refl _, Subset.refl _⟩

theorem ClassInfo.Grows.trans {a b c : ClassInfo} (h : a.Grows b) (h' : b.Grows c) : a.Grows c :=
  ⟨h'.base.trans h.base, h'.constants.trans h.constants, Subset.trans h.members h'.members,
    Subset.trans h.methods h'.methods, Subset.trans h.enums h'.enums⟩

theorem Table.keys_subset_put (t : Table α) (name : String) (value : α) : t.keys ⊆ (t.put name value).keys :=
  fun _ h => (mem_keys_put name value).mpr (.inr h)

theorem ClassEntry.grows_put (e : ClassEntry) (c : ClassInfo) : c.Grows (e.put c) := by
  have refl := ClassInfo.Grows.refl c
  cases e with
  | member name type => exact { refl with members := c.members.keys_subset_put name type }
  | method name returns => exact { refl with methods := c.methods.keys_subset_put name returns }
  | enumerators names type =>
    refine { refl with enums := ?_ }
    have all (t : Table Ty) : t.keys ⊆ (names.foldl (fun t name => t.put name type) t).keys := by
      induction names generalizing t with
      | nil => exact Subset.refl _
      | cons n ns ih => exact Subset.trans (t.keys_subset_put n type) (ih (t.put n type))
    exact all c.enums

/-- The start of a class, if a note is of one. -/
def Note.start? : Note → Option (String × String)
  | .script name base | .opened name base => some (name, base)
  | _ => none

/-- The classes that were started, with the bases that were given for them, oldest first. -/
def startedClasses (history : List Note) : List (String × String) := history.reverse.filterMap Note.start?

theorem startedClasses_cons (n : Note) (h : List Note) :
    startedClasses (n :: h) = startedClasses h ++ n.start?.toList := by
  unfold startedClasses
  cases hn : n.start? <;> simp [hn]

namespace Read

/-- The names of the classes that were started. -/
def startedNames (history : List Note) : List String := (startedClasses history).map (·.1)

theorem startedNames_note {n : Note} (hn : n.start? = none) (history : List Note) :
    startedNames (n :: history) = startedNames history := by
  unfold startedNames
  rw [startedClasses_cons, hn]
  simp

theorem startedNames_start (name base : String) (isMain : Bool) (h : List Note) :
    startedNames ((if isMain = true then .script name base else .opened name base) :: h) =
      startedNames h ++ [name] := by
  unfold startedNames
  rw [startedClasses_cons]
  cases isMain <;> simp [Note.start?]

end Read

/-- What may become of a class table when classes are started, and entries are put into them. -/
structure ClassTable.Frame (started : List (String × String)) (t t' : ClassTable) : Prop where
  /-- No class is removed, and none loses a name or gets another base or other constants. -/
  kept : ∀ c, t.contains c = true → t'.contains c = true ∧ (t.info c).Grows (t'.info c)
  /-- A class that is not started stays as it is. -/
  others : ∀ c, c ∉ started.map (·.1) → t'.find? c = t.find? c
  /-- A class that is started is known. -/
  known : ∀ c ∈ started.map (·.1), t'.contains c = true
  /-- A new class has the base with which it was started first. -/
  new : ∀ c, t.contains c = false → t'.contains c = true →
    ∃ base, started.lookup c = some base ∧ (t'.info c).base = some base

namespace ClassTable

/-- A table in which entries were put into one class. -/
def Gains (name : String) (t t' : ClassTable) : Prop :=
  ∃ es : List ClassEntry, t' = es.foldl (fun t e => t.update name e.put) t

theorem Gains.refl (name : String) (t : ClassTable) : t.Gains name t := ⟨[], rfl⟩

theorem Gains.trans {name : String} {a b c : ClassTable} (h : a.Gains name b) (h' : b.Gains name c) :
    a.Gains name c := by
  obtain ⟨es, rfl⟩ := h
  obtain ⟨es', rfl⟩ := h'
  exact ⟨es ++ es', foldl_append.symm⟩

namespace Frame

variable {started : List (String × String)} {t t' : ClassTable} {name base : String}

theorem refl (t : ClassTable) : Frame [] t t where
  kept c hc := ⟨hc, .refl _⟩
  others _ _ := rfl
  known _ h := absurd h not_mem_nil
  new c hc hc' := by rw [hc] at hc'; cases hc'

theorem find?_declare_of_ne (h : name ≠ c) : (t.declare name base).find? c = t.find? c := by
  unfold declare
  split
  · rfl
  · rw [Table.find?_put, if_neg h]

theorem start (h : Frame started t t') (name base : String) :
    Frame (started ++ [(name, base)]) t (t'.declare name base) where
  kept c hc := by
    obtain ⟨there, grows⟩ := h.kept c hc
    refine ⟨by rw [contains_declare, there, Bool.or_true], ?_⟩
    by_cases known : t'.contains name = true
    · rwa [declare, if_pos known]
    · have other : name ≠ c := fun e => known (e ▸ there)
      rw [info_declare t' name base (by simpa using known), if_neg other]
      exact grows
  others c hc := by
    simp only [map_append, map_cons, map_nil, mem_append, mem_singleton, not_or] at hc
    rw [find?_declare_of_ne (Ne.symm hc.2)]
    exact h.others c hc.1
  known c hc := by
    simp only [map_append, map_cons, map_nil, mem_append, mem_singleton] at hc
    rw [contains_declare]
    rcases hc with hc | rfl
    · rw [h.known c hc, Bool.or_true]
    · simp
  new c hc hc' := by
    by_cases known : t'.contains c = true
    · obtain ⟨b, hb, hbase⟩ := h.new c hc known
      refine ⟨b, by rw [lookup_append, hb]; rfl, ?_⟩
      by_cases same : t'.contains name = true
      · rwa [declare, if_pos same]
      · have other : name ≠ c := fun e => same (e ▸ known)
        rw [info_declare t' name base (by simpa using same), if_neg other]
        exact hbase
    · -- the class is the one that is started now, for the first time
      have same : name = c := by
        rw [contains_declare] at hc'
        simpa [known] using hc'
      subst same
      have first : started.lookup name = none := by
        rw [lookup_eq_none_iff]
        intro e he
        have ne : name ≠ e.1 := fun hn => known (h.known name (hn ▸ mem_map_of_mem he))
        simpa using ne
      refine ⟨base, by rw [lookup_append, first]; simp, ?_⟩
      rw [info_declare t' name base (by simpa using known), if_pos rfl]

theorem update (h : Frame started t t') (hn : name ∈ started.map (·.1)) (e : ClassEntry) :
    Frame started t (t'.update name e.put) where
  kept c hc := by
    obtain ⟨there, grows⟩ := h.kept c hc
    refine ⟨by rw [contains_update, there, Bool.or_true], ?_⟩
    rw [info_update]
    split
    · exact grows.trans (e.grows_put _)
    · exact grows
  others c hc := by
    have other : name ≠ c := fun e => hc (e ▸ hn)
    show (Table.put ..).find? c = _
    rw [Table.find?_put, if_neg other]
    exact h.others c hc
  known c hc := by rw [contains_update, h.known c hc, Bool.or_true]
  new c hc hc' := by
    have known : t'.contains c = true := by
      rw [contains_update] at hc'
      by_cases same : name = c
      · exact same ▸ h.known name hn
      · simpa [same] using hc'
    obtain ⟨b, hb, hbase⟩ := h.new c hc known
    refine ⟨b, hb, ?_⟩
    rw [info_update]
    split
    · rw [(e.grows_put _).base]
      exact hbase
    · exact hbase

theorem gains {t'' : ClassTable} (h : Frame started t t') (hn : name ∈ started.map (·.1))
    (hg : t'.Gains name t'') : Frame started t t'' := by
  obtain ⟨es, rfl⟩ := hg
  induction es generalizing t' with
  | nil => exact h
  | cons e es ih => exact ih (h.update hn e)

end Frame

end ClassTable

/-! ## Targets -/

/-- A target that changes no class but the one that it is in, by entries that it puts into it. `within`
says in which class the pages of a target are. -/
structure Writer.Minds (w : Writer σ) (within : σ → String → Prop) : Prop where
  serve : ∀ q d c, q.enters = false → within d.pages c →
    within (endState (w.serve q d)).pages c ∧ d.classes.Gains c (endState (w.serve q d)).classes
  quiet : ∀ q d, q.inBlock = true → (endState (w.serve q d)).classes = d.classes
  enter : ∀ name d, (endState (w.serve (.enterClass name) d)).classes = d.classes ∧
    within (endState (w.serve (.enterClass name) d)).pages name
  takePage : ∀ d, (endState (w.takePage d)).classes = d.classes ∧
    ∀ c, within d.pages c → within (endState (w.takePage d)).pages c

theorem Writer.Minds.of_discreet {w : Writer σ} (hw : ∀ q, Discreet (w.serve q)) (hp : Discreet w.takePage) :
    w.Minds fun _ _ => True where
  serve q d c _ _ := ⟨trivial, by rw [(hw q d).1]; exact .refl ..⟩
  quiet q d _ := (hw q d).1
  enter name d := ⟨(hw _ d).1, trivial⟩
  takePage d := ⟨(hp d).1, fun _ _ => trivial⟩

namespace CPlusPlus

/-- The manner of actions that leave the class table alone. -/
def untouched : PageManner State SameClass :=
  .ofPages (.always (fun d d' => d'.classes = d.classes) (fun _ => rfl) fun h h' => h'.trans h)
    SameClass.refl (fun _ _ _ => rfl) fun _ _ => rfl

/-- An action that stays in its class, and puts entries into it only. -/
def StaysInClass (d d' : Desk (Pages State)) : Prop :=
  d'.pages.own.className = d.pages.own.className ∧ d.classes.Gains d.pages.own.className d'.classes

theorem StaysInClass.trans {a b c : Desk (Pages State)} (h : StaysInClass a b) (h' : StaysInClass b c) :
    StaysInClass a c := by
  obtain ⟨name, gains⟩ := h
  obtain ⟨name', gains'⟩ := h'
  rw [name] at name' gains'
  exact ⟨name', gains.trans gains'⟩

/-- The manner of actions that stay in a class. -/
def inClass : PageManner State SameClass :=
  .ofPages (.always StaysInClass (fun _ => ⟨rfl, .refl _ _⟩) StaysInClass.trans)
    SameClass.refl (fun _ _ h => ⟨h.1, .refl _ _⟩) fun _ _ => ⟨rfl, .refl _ _⟩

theorem writer_minds (s : Settings) : (writer s).Minds fun p c => p.own.className = c where
  serve q d c hq hc := by
    have allowed := serve_allowed s inClass q (fun _ _ _ h => ⟨h.1, .refl ..⟩)
      (fun _ => .of_all (fun _ name returns => ⟨rfl, [.method name returns], rfl⟩) fun _ _ => ⟨rfl, .refl ..⟩)
      (fun name h => by subst h; cases hq) (fun _ _ _ _ _ _ => ⟨rfl, .refl ..⟩) fun _ => trivial
    have stays := allowed.endState (fun _ _ _ h => h) d
    subst hc
    exact ⟨stays.1, stays.2⟩
  quiet q d hq := by
    have allowed := serve_allowed s untouched q (fun _ _ _ _ => rfl)
      (fun h => absurd (hq.symm.trans h) nofun) (fun _ _ _ => rfl) (fun _ _ _ _ _ _ => rfl) fun _ => trivial
    exact allowed.endState (fun _ _ _ h => h) d
  enter _ _ := ⟨rfl, rfl⟩
  takePage _ := ⟨rfl, fun _ h => h⟩

end CPlusPlus

/-! ## Readers -/

namespace Read

variable {w : Writer σ} {within : σ → String → Prop} {before : ClassTable} {s : Reader σ}

/-- A reader before the first class. -/
structure Fresh (before : ClassTable) (s : Reader σ) : Prop where
  classes : s.classes = []
  started : startedClasses s.history = []
  table : s.desk.classes = before

/-- A reader that is in classes that were started, and has changed the table for them. -/
structure Started (before : ClassTable) (s : Reader σ) : Prop where
  nonempty : s.classes ≠ []
  opened : ∀ c ∈ s.classes, c ∈ (startedClasses s.history).map (·.1)
  frame : before.Frame (startedClasses s.history) s.desk.classes

/-- Such a reader, whose target is in the same class. -/
structure Framed (within : σ → String → Prop) (before : ClassTable) (s : Reader σ) : Prop
    extends Started before s where
  within : within s.desk.pages s.className

theorem Started.className (h : Started before s) : s.className ∈ (startedClasses s.history).map (·.1) := by
  obtain ⟨c, cs, hc⟩ := exists_cons_of_ne_nil h.nonempty
  have head : s.className = c := by rw [Reader.className, hc]; rfl
  exact head ▸ h.opened c (hc ▸ .head _)

theorem Started.note {n : Note} (h : Started before s) (hn : n.start? = none) :
    Started before { s with history := n :: s.history } := by
  have same : startedClasses (n :: s.history) = startedClasses s.history := by
    rw [startedClasses_cons, hn]
    simp
  constructor
  · exact h.nonempty
  · rw [same]
    exact h.opened
  · rw [same]
    exact h.frame

theorem Fresh.body (W : w.Minds within) : BodyInvariant (Fresh before) w where
  next s h := by
    unfold Reader.next
    split <;> exact { h with }
  log _ _ h := { h with }
  strings _ _ h := { h with }
  inParens _ _ h := { h with }
  level _ _ h := { h with }
  asked _ _ h := { h with }
  serve s q hq h := by
    rw [endState_atDesk]
    exact ⟨h.classes, h.started, (W.quiet q s.desk hq).trans h.table⟩
  takePage s h := by
    rw [endState_atDesk]
    exact ⟨h.classes, h.started, (W.takePage s.desk).1.trans h.table⟩
  note s n hn h := by
    have none : n.start? = none := by cases n <;> first | rfl | cases hn
    refine ⟨h.classes, ?_, h.table⟩
    rw [startedClasses_cons, h.started, none]
    rfl
  learn s name type h := by
    refine ⟨h.classes, ?_, h.table⟩
    show startedClasses (_ :: s.history) = []
    rw [startedClasses_cons, h.started]
    rfl
  use s name h := by
    refine ⟨h.classes, ?_, h.table⟩
    rw [startedClasses_cons, h.started]
    rfl

theorem Framed.note {n : Note} (h : Framed within before s) (hn : n.start? = none) :
    Framed within before { s with history := n :: s.history } :=
  ⟨h.toStarted.note hn, h.within⟩

theorem Framed.record (h : Framed within before s) (e : ClassEntry) :
    Framed within before (endState (record e s)) := by
  have recorded := h.note (n := .recorded s.className e) rfl
  exact ⟨⟨recorded.nonempty, recorded.opened, recorded.frame.update recorded.className e⟩, recorded.within⟩

section

variable (W : w.Minds within)

include W

theorem Framed.serve (h : Framed within before s) {q : Request}
    (hq : q.enters = false) : Framed within before (endState (atDesk (w.serve q) s)) := by
  rw [endState_atDesk]
  obtain ⟨inside, gains⟩ := W.serve q s.desk s.className hq h.within
  exact ⟨⟨h.nonempty, h.opened, h.frame.gains h.className gains⟩, inside⟩

/-- The body of a member changes no class but the one that the reader is in. -/
theorem Framed.body : BodyInvariant (Framed within before) w where
  next s h := by
    unfold Reader.next
    split <;> exact { h with }
  log _ _ h := { h with }
  strings _ _ h := { h with }
  inParens _ _ h := { h with }
  level _ _ h := { h with }
  asked _ _ h := { h with }
  serve s q hq h := h.serve W (by cases q <;> first | rfl | cases hq)
  takePage s h := by
    rw [endState_atDesk]
    obtain ⟨table, inside⟩ := W.takePage s.desk
    exact ⟨⟨h.nonempty, h.opened, table ▸ h.frame⟩, inside _ h.within⟩
  note s n hn h := h.note (by cases n <;> first | rfl | cases hn)
  learn s name type h := by
    have learned := h.note (n := .learned name type) rfl
    exact { learned with }
  use s name h := h.note rfl

theorem announceClass_framed (h : Started before s) :
    Goes (announceClass w) s (fun _ => Framed within before) (Framed within before) := by
  obtain ⟨table, inside⟩ := W.enter s.className s.desk
  have told : Framed within before
      { s with asked := .enterClass s.className :: s.asked
               desk := endState (w.serve (.enterClass s.className) s.desk) } :=
    ⟨⟨h.nonempty, h.opened, table ▸ h.frame⟩, inside⟩
  refine .bind_eq rfl <| .bind_eq rfl ?_
  unfold Goes atDesk
  cases hd : w.serve (.enterClass s.className) s.desk <;> rw [hd] at told <;> exact told

theorem startClass_framed (name base : String) (isMain : Bool)
    (opened : ∀ c ∈ s.classes, c ∈ (startedClasses s.history).map (·.1))
    (frame : before.Frame (startedClasses s.history) s.desk.classes) :
    Goes (startClass w name base isMain) s (fun _ => Framed within before) (Framed within before) := by
  have noted : startedClasses ((if isMain = true then .script name base else .opened name base) :: s.history) =
      startedClasses s.history ++ [(name, base)] := by
    rw [startedClasses_cons]
    cases isMain <;> rfl
  refine (announceClass_framed W ?_).bind fun _ s' h => .bind_eq rfl ?_
  · constructor
    · exact cons_ne_nil _ _
    · intro c hc
      show c ∈ (startedClasses (_ :: s.history)).map (·.1)
      rw [noted, map_append]
      rcases mem_cons.mp hc with rfl | hc
      · exact mem_append_right _ mem_cons_self
      · exact mem_append_left _ (opened c hc)
    · show before.Frame (startedClasses (_ :: s.history)) _
      rw [noted]
      exact frame.start name base
  · exact keeping_goes (keeping_serve (Framed.body W) fun _ h => h.serve W rfl) h

theorem endClass_framed : Keeps (.keeping (Framed within before)) (endClass w) := by
  have B : BodyInvariant (Framed within before) w := Framed.body W
  refine keeping_of_goes fun s h => ?_
  refine .bind_eq rfl <| (keeping_goes (keeping_serve B fun _ h => h.serve W rfl) h).bind
    fun _ s1 h1 => .bind_eq rfl <| .bind_eq rfl ?_
  have closed := h1.toStarted.note (n := .closed) rfl
  refine announceClass_framed W ⟨?_, fun c hc => ?_, closed.frame⟩
  · show s1.enclosing ≠ []
    unfold Reader.enclosing
    split
    · next inner =>
      intro empty
      have := congrArg List.length empty
      rw [length_drop, length_nil] at this
      omega
    · exact h1.nonempty
  · refine closed.opened c ?_
    revert hc
    show c ∈ s1.enclosing → c ∈ s1.classes
    unfold Reader.enclosing
    split
    · exact mem_of_mem_drop
    · exact id

/-- **Classes change no class but those that they start.** -/
theorem Framed.invariant : ClassInvariant (Framed within before) w where
  toBodyInvariant := body W
  serveMember s q hq h := h.serve W (by cases q <;> first | rfl | cases hq)
  record s e _ h := h.record e
  putMethod := keeping_putMethod (fun _ e h => h.record e) fun _ =>
    keeping_serve (body W) fun _ h => h.serve W rfl
  innerClass hi s _ h := keeping_goes ((body W).innerClass hi
    (fun name base _ h => startClass_framed W name base false h.opened h.frame) (endClass_framed W))
    ((body W).next s h)

theorem script_frames (n : Nat) (name : String) (h : Fresh before s) :
    Goes (script w (rules w n) name) s (fun _ s' => before.Frame (startedClasses s'.history) s'.desk.classes)
      fun s' => before.Frame (startedClasses s'.history) s'.desk.classes := by
  have B : BodyInvariant (Fresh before) w := Fresh.body W
  have fresh (s : Reader σ) (h : Fresh before s) : before.Frame (startedClasses s.history) s.desk.classes := by
    rw [h.started, h.table]
    exact .refl before
  have header : Goes (header w name) s (fun _ => Framed within before)
      fun s' => before.Frame (startedClasses s'.history) s'.desk.classes := by
    rw [header_eq]
    have names := Keeps.headerNames B.laws (keeping_note B rfl)
      (fun s b (h : Fresh before s) => { h with }) name
    refine (keeping_goes names h).bind_mono fresh fun names s1 h1 => ?_
    have opened : ∀ c ∈ s1.classes, c ∈ (startedClasses s1.history).map (·.1) := by
      rw [h1.classes]
      nofun
    refine (startClass_framed W _ _ true opened (fresh s1 h1)).bind_mono (fun _ h => h.frame) fun _ s2 h2 => ?_
    exact (keeping_goes (.endLine (Framed.body W).laws) h2).mono (fun _ _ h => h) fun _ h => h.frame
  refine header.bind fun _ s1 h1 => ?_
  have body : Keeps (.keeping (Framed within before)) (scriptBody w (rules w n)) :=
    .scriptBody (Framed.invariant W).laws n
  refine (keeping_goes body h1).bind_mono (fun _ h => h.frame) fun _ s2 h2 => ?_
  have ending := keeping_serve (Framed.body W) fun s (h : Framed within before s) =>
    h.serve W (q := .endScript) rfl
  exact (keeping_goes ending h2).mono (fun _ _ h => h.frame) fun _ h => h.frame

end

theorem script_asWritten (w : Writer σ) (n : Nat) (name : String) {ws : List Word} (h : AsWritten name ws s)
    (hs : s.upcoming = ws) : Goes (script w (rules w n) name) s (fun _ => AsWritten name ws) (AsWritten name ws) := by
  have B := asWritten_body name ws w
  have header : Goes (header w name) s (fun _ => AsWritten name ws) (AsWritten name ws) := by
    rw [header_eq]
    have names := Keeps.headerNames B.laws (keeping_note B rfl)
      (fun s b (h : AsWritten name ws s) => ⟨⟨h.within.current, h.within.ahead⟩, h.notes⟩) name
    refine ((keeping_goes names h).and (headerNames_tells name s)).bind_mono (fun _ h => h.1)
      fun names s1 ⟨h1, said⟩ => ?_
    rw [hs] at said
    exact (asWritten_startClass true said h1).bind fun _ s2 h2 =>
      keeping_goes (.endLine B.laws) h2
  have body := Keeps.scriptBody (asWritten_invariant name ws w).laws n
  refine header.bind fun _ s1 h1 => (keeping_goes body h1).bind fun _ s2 h2 => ?_
  exact keeping_goes (keeping_serve B fun s h => h.atDesk (w.serve .endScript)) h2

end Read

/-! ## Runs -/

/-- What a run leaves of a class table: only the classes that the script starts are other than before, and
these are started as the script says. -/
def FramesClasses (name text : String) (before : ClassTable) (o : Outcome σ) : Prop :=
  before.Frame (startedClasses o.history) o.desk.classes ∧ ∀ n ∈ o.history, n.AsWritten name (wordsOf text)

theorem framesClasses_of_minds {w : Writer σ} {within : σ → String → Prop} (W : w.Minds within)
    (name text : String) (desk : Desk σ) : FramesClasses name text desk.classes (run w name text desk) := by
  cases hl : (scan (text ++ "\n")).lexemes with
  | nil =>
    unfold run
    simp only [hl]
    exact ⟨.refl _, nofun⟩
  | cons first rest =>
    rw [run_cons w name desk hl]
    have words : wordsOf text = first.token.word :: rest.map (·.token.word) := by
      unfold wordsOf
      rw [hl]
      rfl
    have frames := Read.script_frames W (Read.depth (rest.length + 1)) name
      (s := startOf text desk first rest) ⟨rfl, rfl, rfl⟩
    have start : Read.AsWritten name (wordsOf text) (startOf text desk first rest) :=
      ⟨⟨by rw [words]; rfl, by rw [words]; rfl⟩, nofun⟩
    have written := Read.script_asWritten w (Read.depth (rest.length + 1)) name start words.symm
    unfold Read.Goes at frames written
    generalize Read.script w _ name _ = result at frames written ⊢
    cases result with
    | ok | error => exact ⟨frames, written.notes⟩

/-- **What a run may change in a class table.** Whatever the table, the script and the target are, and
whether the run ends well or in a fault: no class is removed and none loses a name, bases and constants
stay, and a class that is other than before is the script's own or one of its inner classes. A class that
is new has the base that stands after its name, or in the header of the script, and else `Object`. -/
theorem run_frames_classes (s : Settings) (name text : String) :
    (∀ desk, FramesClasses name text desk.classes (run Collect.writer name text desk)) ∧
    (∀ desk, FramesClasses name text desk.classes (run (CSharp.writer s) name text desk)) ∧
    ∀ desk, FramesClasses name text desk.classes (run (CPlusPlus.writer s) name text desk) :=
  ⟨framesClasses_of_minds (.of_discreet Collect.serve_discreet (.pure _)) name text,
    framesClasses_of_minds (.of_discreet (CSharp.serve_discreet s) Page.takePage_discreet) name text,
    framesClasses_of_minds (CPlusPlus.writer_minds s) name text⟩

end GdScribe
