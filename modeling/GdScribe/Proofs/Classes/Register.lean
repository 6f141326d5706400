import GdScribe.Proofs.Classes.Entries
import GdScribe.Proofs.Classes.Told
import GdScribe.Proofs.Reader.Session
import GdScribe.Proofs.Target.Tidied
import GdScribe.Proofs.Text.Replace
import Mathlib.Data.List.Induction
import Mathlib.Data.List.Nodup

/-!
# The register of a script in C++

What a script asks for is told by the requests, and what is written for it by entries. Where the names of
classes are new and differ, the entries account for all that was asked.

* `Registered`: the entries that were made so far, and how they stand to what is known and written.

* `Registry`: the same for a run that ended well, with the text of each class in the emitted code.

Principal results: `run_binds_all_methods` and `run_assigns_once`.
-/

namespace GdScribe

open List

theorem ClassTable.tables_declare (t : ClassTable) (name base c : String) :
    ((t.declare name base).info c).methods = (t.info c).methods ∧
    ((t.declare name base).info c).enums = (t.info c).enums ∧
      ((t.declare name base).info c).members = (t.info c).members := by
  by_cases h : t.contains name = true
  · rw [declare, if_pos h]
    exact ⟨rfl, rfl, rfl⟩
  · have new : t.contains name = false := by simpa using h
    rw [info_declare t name base new]
    split
    · next same =>
      have none : t.find? c = none := by simpa [Table.contains, same] using new
      rw [info, none]
      exact ⟨rfl, rfl, rfl⟩
    · exact ⟨rfl, rfl, rfl⟩

namespace CPlusPlus

open Target Read

/-- The class that was entered last, by requests of which the last stands first. -/
def enteredLast : List Request → String
  | [] => ""
  | .enterClass c :: _ => c
  | _ :: qs => enteredLast qs

/-- The member for which a request asks. -/
def Source.ofRequest : Request → Option Source
  | .property p _ => some (.property p)
  | .method m => some (.method m)
  | .marker name args member _ => some (.marker ⟨member, name, args⟩)
  | .signal name params => some (.signal name params)
  | .enumeration _ values _ => some (.enumeration values.keys)
  | .accessor p a => some (.ofAccessor p.name a)
  | _ => none

/-- The members that were asked for, in this order, with the classes that they belong to. -/
def declared : List Request → List (String × Source)
  | [] => []
  | q :: qs => declared qs ++ (Source.ofRequest q).toList.map (enteredLast qs, ·)

theorem declared_inBlock {qs l : List Request} (h : ∀ q ∈ qs, q.inBlock = true) :
    declared (qs ++ l) = declared l ∧ enteredLast (qs ++ l) = enteredLast l := by
  induction qs with
  | nil => exact ⟨rfl, rfl⟩
  | cons q qs ih =>
    obtain ⟨said, entered⟩ := ih fun q hq => h q (mem_cons_of_mem _ hq)
    have hq := h q mem_cons_self
    cases q <;> first | exact ⟨(append_nil _).trans said, entered⟩ | cases hq

variable {q : Request} {d : Desk (Pages State)}

theorem enteredLast_cons (h : ∀ c, q ≠ .enterClass c) (qs : List Request) :
    enteredLast (q :: qs) = enteredLast qs := by
  cases q <;> first | rfl | exact absurd rfl (h _)

/-- Names of classes that are not in a table, all different. -/
def NewNames (t : ClassTable) (names : List String) : Prop := names.Nodup ∧ ∀ c ∈ names, t.contains c = false

/-- A class that has ended. -/
structure Sealed (z : Settings) (xs : List Entry) (d : Desk (Pages State)) (c : String) : Prop where
  closes : Closes z c { name := c } [] (ownedBy c xs)
  none : (d.pages.own.draftOf c).onready = []

variable {c : String}

theorem Closes.append {z : Settings} {b : ClassDraft} {names : List String} {xs ys : List Entry}
    (h : Closes z c (b.enterAll xs) (enumeratorsAfter names xs) ys) : Closes z c b names (xs ++ ys) := by
  have enterAll (ys : List Entry) : b.enterAll (xs ++ ys) = (b.enterAll xs).enterAll ys := foldl_append ..
  rcases h with bare | ⟨before, x, code, rfl, source, bind⟩
  · exact .inl (enterAll ys ▸ bare)
  · refine .inr ⟨xs ++ before, x, code, (append_assoc ..).symm, source, enterAll before ▸ ?_⟩
    rw [enumeratorsAfter, foldl_append]
    exact bind

variable {a : BoundMarker}

theorem mem_markers_enterAll (xs : List Entry) :
    ∀ b : ClassDraft, a ∈ (b.enterAll xs).markers → a ∈ b.markers ∨ ∃ x ∈ xs, x.source = .marker a := by
  induction xs with
  | nil => exact fun _ => .inl
  | cons x xs ih =>
    intro b h
    rcases ih (b.enter x.source) h with h | ⟨y, hy, source⟩
    · cases hx : x.source with
      | marker a' =>
        rw [hx] at h
        rcases mem_append.mp h with h | h
        · exact .inl h
        · exact .inr ⟨x, .head _, by rw [hx, mem_singleton.mp h]⟩
      | _ => rw [hx] at h; exact .inl h
    · exact .inr ⟨y, .tail _ hy, source⟩

/-! ## What requests have written -/

/-- The implementation so far, with the requests and the entries that it is made of: each request adds a piece. One of a
statement adds what it writes, if it does not write to a page that is taken off; any other one adds its entries. -/
inductive Account (z : Settings) : List Request → List Entry → String → Prop
  | nil : Account z [] [] ""
  | inBlock {q : Request} {qs : List Request} {xs : List Entry} {text more : String} (h : Account z qs xs text)
      (hq : q.inBlock = true) (written : MayWrite z q more) : Account z (q :: qs) xs (text ++ more)
  | member {q : Request} {qs : List Request} {xs ys : List Entry} {text more : String} (h : Account z qs xs text)
      (hq : q.inBlock = false) (written : Woven (ys.map Entry.text) more) :
      Account z (q :: qs) (xs ++ ys) (text ++ more)

theorem Account.body {z : Settings} {qs l : List Request} {xs : List Entry} {text more : String}
    (wrote : Wrote (MayWrite z) qs more) (h : Account z l xs text) (inBlock : ∀ q ∈ qs, q.inBlock = true) :
    Account z (qs ++ l) xs (text ++ more) := by
  induction wrote with
  | nil => rwa [String.append_empty]
  | cons _ hq ih =>
    rw [← String.append_assoc]
    exact (ih fun q hm => inBlock q (.tail _ hm)).inBlock (inBlock _ mem_cons_self) hq

/-- The page and the requests of a reader have grown by some entries, whatever they were before. -/
def Accounts (z : Settings) (ys : List Entry) (s s' : Reader (Pages State)) : Prop :=
  ∃ qs text, s'.asked = qs ++ s.asked ∧ s'.desk.pages.page = s.desk.pages.page ++ text ∧
    ∀ l xs t, Account z l xs t → Account z (qs ++ l) (xs ++ ys) (t ++ text)

namespace Accounts

variable {z : Settings} {ys : List Entry} {s s' : Reader (Pages State)}

theorem same (asked : s'.asked = s.asked) (page : s'.desk.pages.page = s.desk.pages.page) : Accounts z [] s s' :=
  ⟨[], "", asked, by rw [page, String.append_empty], fun _ _ _ h => by rwa [append_nil, String.append_empty]⟩

theorem request (hq : q.inBlock = false) (asked : s'.asked = q :: s.asked)
    (page : ∃ text, s'.desk.pages.page = s.desk.pages.page ++ text ∧ Woven (ys.map Entry.text) text) :
    Accounts z ys s s' := by
  obtain ⟨text, page, woven⟩ := page
  exact ⟨[q], text, asked, page, fun _ _ _ h => h.member hq woven⟩

theorem body (h : (bodyCourse z).ok s s') : Accounts z [] s s' := by
  obtain ⟨stacked, calm⟩ := h
  obtain ⟨qs, asked, -, text, page, wrote⟩ := stacked.adding
  obtain ⟨l, asked', inBlock⟩ := calm.asked
  obtain rfl : qs = l := append_cancel_right (asked.symm.trans asked')
  exact ⟨qs, text, asked, page, fun _ _ _ h => by rw [append_nil]; exact .body wrote h inBlock⟩

end Accounts

/-! ## The entries of a script -/

variable {α : Type} {z : Settings} {d0 : Desk (Pages State)} {aw gv u v : List String} {xs ys : List Entry}
  {s s' : Reader (Pages State)}

/-- The entries of a script so far. Annotations may belong to members that are awaited, and some members are given. -/
structure Registered (z : Settings) (d0 : Desk (Pages State)) (aw gv : List String) (xs : List Entry)
    (s : Reader (Pages State)) : Prop where
  records : Records xs d0 s.desk
  page : ∃ text, s.desk.pages.page = d0.pages.page ++ text ∧ Account z s.asked xs text
  sound : ∀ x ∈ xs, x.Sound z ∧ x.owner ∈ startedNames s.history
  said : told xs = declared s.asked
  opened : ∀ c ∈ s.classes, c ∈ startedNames s.history
  within : s.classes ≠ [] → s.desk.pages.own.className = s.className ∧ enteredLast s.asked = s.className
  known : ∀ x ∈ xs, ∀ a m, x.source = .marker a → a.member = some m → m ≠ "" →
    m ∈ (s.desk.classes.info x.owner).members.keys ∨ x.owner = s.className ∧ m ∈ aw
  given : ∀ n ∈ gv, n ∈ (s.desk.classes.info s.className).members.keys
  closed : ∀ c ∈ startedNames s.history, c ∈ s.classes ∨ Sealed z xs s.desk c

theorem Registered.accounted (h : Registered z d0 aw gv xs s) (accounts : Accounts z ys s s') :
    ∃ text, s'.desk.pages.page = d0.pages.page ++ text ∧ Account z s'.asked (xs ++ ys) text := by
  obtain ⟨text, page, account⟩ := h.page
  obtain ⟨qs, more, asked, page', step⟩ := accounts
  exact ⟨text ++ more, by rw [page', page, String.append_assoc], asked ▸ step _ _ _ account⟩

theorem className_mem (h : s.classes ≠ []) : s.className ∈ s.classes := by
  obtain ⟨c, l, hl⟩ := exists_cons_of_ne_nil h
  rw [Reader.className, hl]
  exact .head _

/-- **Entries of the class that is being read.** -/
theorem Registered.step (h : Registered z d0 aw gv xs s) (hc : s.classes ≠ [] ∨ ys = [])
    (records : Records ys s.desk s'.desk) (own : s'.desk.pages.own.className = s.desk.pages.own.className)
    (sound : ∀ x ∈ ys, x.Sound z ∧ x.owner = s.desk.pages.own.className) (accounts : Accounts z ys s s')
    (classes : s'.classes = s.classes)
    (started : startedNames s'.history = startedNames s.history)
    (said : declared s'.asked = declared s.asked ++ told ys) (entered : enteredLast s'.asked = enteredLast s.asked)
    (known : ∀ m ∈ aw, m ≠ "" → m ∈ u ∨ m ∈ (s'.desk.classes.info s.className).members.keys)
    (new : ∀ x ∈ ys, ∀ a m, x.source = .marker a → a.member = some m → m ≠ "" → m ∈ u)
    (given : ∀ n ∈ v, n ∈ (s'.desk.classes.info s.className).members.keys) : Registered z d0 u v (xs ++ ys) s' := by
  have name : s'.className = s.className := by rw [Reader.className, classes, Reader.className]
  have owned (x : Entry) (hx : x ∈ ys) : x.owner = s.className ∧ s.className ∈ s.classes := by
    have hc := hc.resolve_right (ne_nil_of_mem hx)
    exact ⟨(sound x hx).2.trans (h.within hc).1, className_mem hc⟩
  refine ⟨h.records.trans records, h.accounted accounts, fun x hx => ?_, ?_, ?_, fun hc => ?_,
    fun x hx a m hs hm hne => ?_, ?_, fun c hc => ?_⟩
  · rw [started]
    rcases mem_append.mp hx with hx | hx
    · exact h.sound x hx
    · exact ⟨(sound x hx).1, (owned x hx).1 ▸ h.opened _ (owned x hx).2⟩
  · rw [told_append, h.said, said]
  · rw [classes, started]
    exact h.opened
  · rw [name, own, entered]
    exact h.within (classes ▸ hc)
  · rw [name]
    rcases mem_append.mp hx with hx | hx
    · rcases h.known x hx a m hs hm hne with there | ⟨here, waits⟩
      · exact .inl (records.members _ there)
      · rcases known m waits hne with waits | there
        · exact .inr ⟨here, waits⟩
        · exact .inl (here ▸ there)
    · exact .inr ⟨(owned x hx).1, new x hx a m hs hm hne⟩
  · rw [name]
    exact given
  · rw [started] at hc
    rw [classes]
    by_cases inside : c ∈ s.classes
    · exact .inl inside
    · have ended := (h.closed c hc).resolve_left inside
      have none : ownedBy c ys = [] := filter_eq_nil_iff.mpr fun x hx mine =>
        inside (of_decide_eq_true mine ▸ (owned x hx).1 ▸ (owned x hx).2)
      refine .inr ⟨?_, ?_⟩
      · rw [ownedBy_append, none, append_nil]
        exact ended.closes
      · have waits := records.waits c
        rw [none, ended.none] at waits
        exact waits.symm

theorem Registered.calm (h : Registered z d0 aw gv xs s) (hs : (bodyCourse z).ok s s') :
    Registered z d0 aw gv xs s' := by
  obtain ⟨stacked, calm⟩ := hs
  obtain ⟨qs, asked, inBlock⟩ := calm.asked
  obtain ⟨said, entered⟩ := declared_inBlock inBlock
  have records : Records [] s.desk s'.desk := .same calm.own.books (fun c => by rw [calm.table])
    (fun c => by rw [calm.table]) fun c => by rw [calm.table]; exact Subset.refl _
  have step := h.step (.inr rfl) records calm.own.className nofun (.body ⟨stacked, calm⟩) calm.classes calm.started
    (by rw [asked, said]; exact (append_nil _).symm) (by rw [asked, entered]) (fun _ hm _ => .inl hm) nofun
    (by rw [calm.table]; exact h.given)
  rwa [append_nil] at step

/-- The entries of a script whose classes have new names. -/
def Entered (z : Settings) (d0 : Desk (Pages State)) (aw gv : List String) (s : Reader (Pages State)) : Prop :=
  NewNames d0.classes (startedNames s.history) → ∃ xs, Registered z d0 aw gv xs s

/-- The entries of a reader that is in a class. -/
def Accounted (z : Settings) (d0 : Desk (Pages State)) (aw gv : List String) (s : Reader (Pages State)) : Prop :=
  s.classes ≠ [] ∧ Entered z d0 aw gv s

/-- No fault for want of an entry, where classes have new names. -/
def NoneMissing (d0 : Desk (Pages State)) (e : Fault) (s : Reader (Pages State)) : Prop :=
  NewNames d0.classes (startedNames s.history) → ∀ m, e ≠ .unknownEntry m

theorem Entered.calm (h : Entered z d0 aw gv s) (hs : (bodyCourse z).ok s s') : Entered z d0 aw gv s' := by
  intro new
  rw [hs.2.started] at new
  obtain ⟨xs, h⟩ := h new
  exact ⟨xs, h.calm hs⟩

theorem Accounted.calm (h : Accounted z d0 aw gv s) (hs : (bodyCourse z).ok s s') : Accounted z d0 aw gv s' :=
  ⟨by rw [hs.2.classes]; exact h.1, h.2.calm hs⟩

theorem Accounted.mono (h : Accounted z d0 aw gv s) (ha : aw ⊆ u) (hg : v ⊆ gv) : Accounted z d0 u v s :=
  ⟨h.1, fun new => have ⟨xs, h⟩ := h.2 new; ⟨xs, { h with
    known := fun x hx a m hs hm hne => (h.known x hx a m hs hm hne).imp_right fun h => ⟨h.1, ha h.2⟩
    given := fun n hn => h.given n (hg hn) }⟩⟩

variable {x : ReadM (Pages State) α}

theorem body_yields (h : Keeps (bodyCourse z) x) (s : Reader (Pages State)) :
    Yields (NoneMissing d0) x s fun a s' => x s = .ok a s' ∧ (bodyCourse z).ok s s' := by
  have kept := h s
  unfold Yields
  cases hx : x s <;> rw [hx] at kept
  · exact ⟨rfl, kept⟩
  · exact fun _ => kept.2

theorem ask_yields {R : Unit → Desk (Pages State) → Prop}
    (h : NewNames d0.classes (startedNames s.history) → Runs (serve z q) s.desk R) :
    Yields (NoneMissing d0) (ask (writer z) q) s fun _ s' => ∃ d, s' = { s with asked := q :: s.asked, desk := d } ∧
      (NewNames d0.classes (startedNames s.history) → R () d) := by
  show Yields _ (atDesk (serve z q)) { s with asked := q :: s.asked } _
  unfold Yields atDesk
  cases hd : serve z q s.desk with
  | ok a d =>
    refine ⟨d, rfl, fun new => ?_⟩
    have := h new
    unfold Runs Yields at this
    rwa [hd] at this
  | error e d =>
    rintro new m rfl
    have := h new
    unfold Runs Yields at this
    rw [hd] at this
    cases this

/-! ## Requests and records -/

theorem mem_told_marker {x : Entry} (hx : x ∈ xs) (sound : x.Sound z) (h : x.source = .marker a) :
    (x.owner, Source.marker a) ∈ told xs := by
  have parsed : x.parsed = true := by
    cases sound with
    | method | getter | setter => cases h
    | _ => rfl
  rw [← h]
  exact mem_map.mpr ⟨x, mem_filter.mpr ⟨hx, parsed⟩, rfl⟩

/-- **A request for a member.** Its record may be put down before. -/
theorem Accounted.ask {s1 : Reader (Pages State)} (hs : Accounted z d0 aw gv s)
    (hc : s1.classes = s.classes) (hh : startedNames s1.history = startedNames s.history) (ha : s1.asked = s.asked)
    (member : q.ofMember = true) (waits : aw ⊆ u)
    (new : ∀ a m, Source.ofRequest q = some (.marker a) → a.member = some m → m ≠ "" → m ∈ u)
    (served : ∀ xs, Registered z d0 aw gv xs s →
      Runs (serve z q) s1.desk fun _ d' => Gives z (Source.ofRequest q).toList s.desk d') :
    Yields (NoneMissing d0) (ask (writer z) q) s1 fun _ => Accounted z d0 u gv := by
  have outside : q.inBlock = false := by cases q <;> first | rfl | cases member
  refine (ask_yields (R := fun _ d' => ∃ xs, Registered z d0 aw gv xs s ∧
    Gives z (Source.ofRequest q).toList s.desk d') fun names => ?_).mono ?_
  · rw [hh] at names
    obtain ⟨xs, h⟩ := hs.2 names
    exact (served xs h).mono fun _ _ gives => ⟨xs, h, gives⟩
  · rintro _ s' ⟨d, rfl, done⟩
    refine ⟨by show s1.classes ≠ []; rw [hc]; exact hs.1, fun names => ?_⟩
    obtain ⟨xs, h, ys, made, said⟩ := done names
    obtain ⟨own, entered⟩ := h.within hs.1
    refine ⟨xs ++ ys, h.step (.inl hs.1) made.toRecords made.className made.sound
      (.request outside (congrArg (q :: ·) ha) made.page) hc hh ?_ ?_ (fun m hm _ => .inl (waits hm))
      (fun x hx a m source hm hne => ?_) fun n hn => made.members _ (h.given n hn)⟩
    · show declared (q :: s1.asked) = _
      rw [ha, declared, said, entered, own]
    · show enteredLast (q :: s1.asked) = _
      rw [ha, enteredLast_cons (by rintro c rfl; cases member)]
    · have told := mem_told_marker hx (made.sound x hx).1 source
      rw [said] at told
      obtain ⟨_, asked, eq⟩ := mem_map.mp told
      rw [(Prod.mk.inj eq).2] at asked
      exact new a m (Option.mem_toList.mp asked) hm hne

/-- **The record of a member.** -/
theorem Accounted.record {e : ClassEntry} {name : String} {type : Ty} (he : e = .member name type)
    (hs : Accounted z d0 aw gv s) (known : ∀ m ∈ aw, m ≠ "" → m ∈ u ∨ m ∈ (e.put s.ownClass).members.keys)
    (given : ∀ n ∈ v, n ∈ (e.put s.ownClass).members.keys) :
    Yields (NoneMissing d0) (record e) s fun _ => Accounted z d0 u v := by
  have started := startedNames_note (n := .recorded s.className e) rfl s.history
  have here : (s.desk.classes.update s.className e.put).info s.className = e.put s.ownClass :=
    (ClassTable.info_update ..).trans (if_pos rfl)
  refine (⟨hs.1, fun names => ?_⟩ : Accounted z d0 u v (endState (Read.record e s)))
  obtain ⟨xs, h⟩ := hs.2 (started ▸ names)
  have records : Records [] s.desk { s.desk with classes := s.desk.classes.update s.className e.put } := by
    refine .same (fun _ => rfl) (fun c => ?_) (fun c => ?_) fun c => ?_
    · rw [he, ClassTable.methodNames, ClassTable.info_update]
      split <;> rfl
    · rw [he, ClassTable.enumNames, ClassTable.info_update]
      split <;> rfl
    · rw [ClassTable.info_update]
      split
      · exact (e.grows_put _).members
      · exact Subset.refl _
  refine ⟨xs ++ [], h.step (.inr rfl) records rfl (fun _ hx => by cases hx) (.same rfl rfl) rfl started
    (append_nil _).symm rfl (fun m hm hne => ?_) (fun _ hx => by cases hx) fun n hn => ?_⟩
  · exact (known m hm hne).imp_right fun hm => here ▸ hm
  · exact here ▸ given n hn

/-- The course of a reader that keeps entries. -/
def registerCourse (z : Settings) (d0 : Desk (Pages State)) (gv : List String) : Course (Pages State) where
  ok s s' := Accounted z d0 [] gv s → Accounted z d0 [] gv s'
  fault e s s' := Accounted z d0 [] gv s → NoneMissing d0 e s'

variable (z d0 gv) in
theorem registerCourse_moves : (registerCourse z d0 gv).Moves where
  refl _ h := h
  trans h h' hs := h' (h hs)
  fail e s he _ _ := by rintro m rfl; cases he
  trans_fault h h' hs := h' (h hs)
  next s h := h.calm ((bodyCourse_laws z).next s)
  log s l h := h.calm ((bodyCourse_laws z).log s l)
  strings s l h := h.calm ((bodyCourse_laws z).strings s l)
  inParens s b h := h.calm ((bodyCourse_laws z).inParens s b)

theorem keeps_register : Keeps (registerCourse z d0 gv) x ↔
    ∀ s, Accounted z d0 [] gv s → Yields (NoneMissing d0) x s fun _ => Accounted z d0 [] gv := by
  refine forall_congr' fun s => ?_
  unfold Yields
  cases x s <;> exact Iff.rfl

theorem body_registers (h : Keeps (bodyCourse z) x) : Keeps (registerCourse z d0 gv) x :=
  keeps_register.mpr fun s hs => (body_yields h s).mono fun _ _ h => hs.calm h.2

theorem ask_registers (member : q.ofMember = true)
    (new : ∀ a m, Source.ofRequest q = some (.marker a) → a.member ≠ some m)
    (served : ∀ d, (∀ n ∈ gv, Known d n) → Runs (serve z q) d fun _ d' => Gives z (Source.ofRequest q).toList d d') :
    Keeps (registerCourse z d0 gv) (ask (writer z) q) :=
  keeps_register.mpr fun s hs => hs.ask rfl rfl rfl member (Subset.refl _) (fun a m hq hm => absurd hm (new a m hq))
    fun _ h => served s.desk fun n hn => by rw [Known, (h.within hs.1).1]; exact h.given n hn

/-! ## Members -/

section members

variable {r : Rules (Pages State)} (H : RulesKeep (bodyCourse z) r)

theorem putMethod_registers {m : Method} (hb : Bodied m.code) :
    Keeps (registerCourse z d0 []) (putMethod (writer z) m) := by
  refine keeps_register.mpr fun s hs => ?_
  obtain ⟨s1, hr, hc, hh, ha, hd⟩ : ∃ s1, record (.method m.name m.returns) s = .ok () s1 ∧ s1.classes = s.classes ∧
      startedNames s1.history = startedNames s.history ∧ s1.asked = s.asked ∧ s1.desk = { s.desk with
        classes := s.desk.classes.update s.className fun i => { i with methods := i.methods.put m.name m.returns } } :=
    ⟨_, rfl, rfl, startedNames_note rfl _, rfl, rfl⟩
  refine .bind_eq hr <| .bind_eq rfl <| hs.ask hc hh ha rfl (Subset.refl _) nofun fun xs h => ?_
  rw [hd]
  refine Yields.mono (method_runs (b := true) nofun (fun _ _ => ?_) s.desk (fun c => ?_) (fun c => ?_) fun c => ?_)
    fun _ _ ⟨x, source, parsed, made, _⟩ => ⟨[x], made, ?_⟩
  · exact hb
  · rw [ClassTable.methodNames_put, (h.within hs.1).1]
    by_cases hn : s.className = c
    · exact .inr ⟨hn, if_pos hn⟩
    · exact .inl (if_neg hn)
  · rw [ClassTable.enumNames, ClassTable.info_update]
    split <;> rfl
  · rw [ClassTable.info_update]
    split <;> exact Subset.refl _
  · have owner := (made.sound x mem_cons_self).2
    simp [told, parsed, source, owner, Source.ofRequest]

theorem markers_registers : Keeps (registerCourse z d0 []) (markers (writer z)) := by
  have L := bodyCourse_laws z
  have M := registerCourse_moves z d0 []
  have marker : Keeps (registerCourse z d0 []) (marker (writer z)) := by
    refine .bind M (.consume M) fun _ => .bind M (body_registers (L.logic.markerArguments (k := 0))) fun _ => ?_
    refine .bind M (body_registers (L.onPage (.endLine L))) fun _ => .bind M (.valueIs M _) fun _ =>
      .ite (.bind M (ask_registers rfl ?_ fun d _ => ?_) fun _ => .pure M _) (.pure M _)
    · rintro _ _ ⟨⟩
      nofun
    · exact gives_of_made (redraft_makes (.marker ..) rfl (append_nil _).symm rfl)
  refine .bind M (.roundsLeft M) fun n => .expectRounds M _ (fun a => .ifExpect M _ ?_ ?_) n _
  · exact .bind M (body_registers (.endLine L)) fun _ => .pure M _
  · exact .bind M marker fun _ => .pure M _

include H

theorem method_registers (static : Bool) : Keeps (registerCourse z d0 []) (Read.method (writer z) r static) := by
  have L := bodyCourse_laws z
  have M := registerCourse_moves z d0 []
  refine .bind M (.consume M) fun name =>
    .skip M _ <| .bind M (body_registers (H.paramDefinitions L.logic (.expect L _))) fun d => ?_
  refine .bind M (body_registers (L.logic.learnAll (k := 0) _)) fun _ => .bind M (.typeAfter M _) fun declared =>
    .skip M _ ?_
  refine keeps_register.mpr fun s hs =>
    (body_yields (L.onPage (H.blocked L.logic)) s).bind fun (t, code) s1 ⟨read, calm⟩ => ?_
  exact keeps_register.mp (putMethod_registers (onPage_block H read) (m :=
    { name := name, params := d.params, inits := d.inits, returns := declared.orElse t, code := code,
      static := static }))
    s1 (hs.calm calm)

theorem enumeration_registers : Keeps (registerCourse z d0 []) (Read.enumeration (writer z) r) := by
  have L := bodyCourse_laws z
  have M := registerCourse_moves z d0 []
  refine .bind M (body_registers (.ifKind L _ (.consume L) (.pure L _))) fun _ => .skip M _ <|
    .bind M (body_registers (H.paramDefinitions L.logic (.expect L _))) fun d => keeps_register.mpr fun s hs => ?_
  refine .bind_eq rfl <| hs.ask rfl (startedNames_note rfl _) rfl rfl (Subset.refl _) nofun fun xs h => ?_
  show Runs _ { s.desk with classes := s.desk.classes.update s.className _ } _
  rw [← (h.within hs.1).1]
  exact enumeration_runs ..

theorem signal_registers : Keeps (registerCourse z d0 []) (Read.signal (writer z) r) := by
  have L := bodyCourse_laws z
  have M := registerCourse_moves z d0 []
  refine .bind M (.consume M) fun _ => .bind M ?_ fun _ => .bind M (body_registers (H.signalParams L.logic)) fun _ =>
    ask_registers rfl nofun fun d _ => signal_runs _ _ d
  exact keeps_register.mpr fun s hs => hs.record rfl nofun nofun

theorem writeProperty_registers (p : Property) (accessible : Bool) :
    Keeps (registerCourse z d0 [p.name]) (writeProperty (writer z) r p accessible) := by
  have L := bodyCourse_laws z
  have M := registerCourse_moves z d0 [p.name]
  have property (deep : Bool) : Keeps (registerCourse z d0 [p.name]) (ask (writer z) (.property p deep)) :=
    ask_registers rfl nofun fun d _ => property_runs p d
  have known {d : Desk (Pages State)} (h : ∀ n ∈ [p.name], Known d n) : Known d p.name := h _ mem_cons_self
  have accessors (n : Nat) : Keeps (registerCourse z d0 [p.name]) (accessors (writer z) r p n) := by
    induction n with
    | zero => exact .pure M _
    | succ n ih =>
      refine .bind M (body_registers (H.accessor? L.logic)) fun a => .bind M ?_ fun _ => .skip M _ <|
        .bind M ih fun _ => .pure M _
      cases a with
      | none => exact .pure M _
      | some a => exact ask_registers rfl (fun _ _ ha => by cases a <;> cases ha) fun d h => accessor_runs (known h) a
  refine .bind M (.expect M _) fun _ => .ite ?_ ?_
  · refine .bind M (body_registers (L.lines.comment (k := 0))) fun _ => .bind M (.expectKind M _) fun _ =>
      .get_bind fun s => ?_
    refine .bind M (.bind M (.bind M (fun s hs => ?_)
        fun _ => .bind M (property _) fun _ => .get_bind fun _ => .pure M _)
      fun _ => .bind M (accessors _) fun found => ?_) fun _ s hs => ?_
    · exact hs.calm ⟨.same rfl rfl rfl, .same rfl rfl rfl (startedNames_note rfl _) rfl⟩
    · exact ask_registers rfl nofun fun d h => endProperty_runs (known h) found
    · exact hs.calm ⟨.same rfl rfl rfl, .same rfl rfl rfl (startedNames_note rfl _) rfl⟩
  · exact .bind M (property _) fun _ => body_registers (L.ask _ rfl)

theorem property_registers (static : Bool) : Keeps (registerCourse z d0 []) (Read.property (writer z) r static) := by
  have L := bodyCourse_laws z
  have M := registerCourse_moves z d0 []
  refine .bind M markers_registers fun a => .bind M (.expect M _) fun constant =>
    .bind M (body_registers (.ite (.pure L _) (.expect L _)))
    fun _ => .ite (.bind M (.consume M) fun name => keeps_register.mpr fun s hs => ?_) (.pure M _)
  -- the annotation awaits its member
  have awaited : Yields (NoneMissing d0) (writeMarker (writer z) name a.last) s fun _ => Accounted z d0 [name] [] := by
    have idle : Accounted z d0 [name] [] s := hs.mono (nil_subset _) (Subset.refl _)
    cases a.last with
    | none => exact idle
    | some m =>
      refine .ite (fun _ => hs.ask rfl rfl rfl rfl (nil_subset _) ?_ fun _ _ => ?_) fun _ => idle
      · rintro _ m ⟨⟩ ⟨⟩ _
        exact .head _
      · exact gives_of_made (redraft_makes (.marker ..) rfl (append_nil _).symm rfl)
  refine awaited.bind fun _ s1 h1 => (body_yields (H.declaration L.logic name) s1).bind fun d s2 ⟨read, calm⟩ => ?_
  -- its record makes it known
  refine ((h1.calm calm).record (u := []) (v := [d.name]) (e := .member d.name (some d.type)) rfl
    (fun m hm hne => .inr ?_) fun n hn => ?_).bind
    fun _ s3 h3 => ?_
  · rw [mem_singleton.mp hm] at hne ⊢
    have named := declaration_name (w := writer z) (r := r) (s := s1) hne
    unfold Goes at named
    rw [read] at named
    exact (Table.mem_keys_put ..).mpr (.inl named)
  · exact (Table.mem_keys_put ..).mpr (.inl (mem_singleton.mp hn).symm)
  · exact (keeps_register.mp (writeProperty_registers H _ _) s3 h3).mono
      fun _ _ h => h.mono (Subset.refl _) (nil_subset _)

theorem plainItem_registers (static : Bool) : Keeps (registerCourse z d0 []) (plainItem (writer z) r static) :=
  have M := registerCourse_moves ..
  .ifExpect M _ (enumeration_registers H) <| .ifExpect M _ (method_registers H static) <|
    .ifExpect M _ (signal_registers H) (property_registers H static)

end members

/-! ## Classes -/

theorem Registered.enter (h : Registered z d0 [] [] xs s) (records : Records [] s.desk s'.desk)
    (accounts : Accounts z [] s s')
    (started : startedNames s.history ⊆ startedNames s'.history) (said : declared s'.asked = declared s.asked)
    (opened : ∀ c ∈ s'.classes, c ∈ startedNames s'.history)
    (within : s'.desk.pages.own.className = s'.className ∧ enteredLast s'.asked = s'.className)
    (closed : ∀ c ∈ startedNames s'.history, c ∉ s'.classes → Sealed z xs s.desk c) : Registered z d0 [] [] xs s' where
  records := by
    have both := h.records.trans records
    rwa [append_nil] at both
  page := by
    have page := h.accounted accounts
    rwa [append_nil] at page
  sound x hx := (h.sound x hx).imp_right fun hx => started hx
  said := h.said.trans said.symm
  opened := opened
  within _ := within
  known x hx a m hs hm hne := (h.known x hx a m hs hm hne).imp (fun h => records.members _ h) fun h => nomatch h.2
  given := nofun
  closed c hc := by
    by_cases inside : c ∈ s'.classes
    · exact .inl inside
    · have ended := closed c hc inside
      refine .inr ⟨ended.closes, ?_⟩
      have waits := records.waits c
      rw [ended.none] at waits
      exact waits.symm

section start

variable (h0 : d0.pages.own.drafts = {})

include h0

section

variable (h : Registered z d0 aw gv xs s)

include h

theorem Registered.draft (c : String) :
    (s.desk.pages.own.draftOf c).ledger = ({ name := c } : ClassDraft).enterAll (ownedBy c xs) := by
  rw [h.records.ledger, State.draftOf, h0]
  rfl

theorem Registered.unopened (hc : c ∉ startedNames s.history) :
    (s.desk.pages.own.draftOf c).books = { name := c } := by
  have none : ownedBy c xs = [] := filter_eq_nil_iff.mpr fun x hx owned =>
    hc (of_decide_eq_true owned ▸ (h.sound x hx).2)
  have ledger := h.draft h0 c
  have waits := h.records.waits c
  rw [none] at ledger waits
  rw [State.draftOf, h0] at waits
  calc (s.desk.pages.own.draftOf c).books
    _ = { (s.desk.pages.own.draftOf c).ledger with onready := (s.desk.pages.own.draftOf c).onready } := rfl
    _ = { name := c } := by rw [ledger, ← show [] = (s.desk.pages.own.draftOf c).onready from waits]; rfl

theorem Registered.agrees (new : d0.classes.contains c = false) :
    Agrees s.desk c := by
  refine h.records.agrees c ?_
  have none : d0.classes.find? c = none := by simpa [Table.contains] using new
  rw [Agrees, ClassTable.methodNames, ClassTable.info, none, State.draftOf, h0]
  rfl

omit h0 in
theorem Registered.enumerators (new : d0.classes.contains c = false) :
    s.desk.classes.enumNames c = enumeratorsAfter [] (ownedBy c xs) := by
  have none : d0.classes.find? c = none := by simpa [Table.contains] using new
  rw [h.records.enums, ClassTable.enumNames, ClassTable.info, none]
  rfl

end

/-- **The start of a class.** -/
theorem startClass_yields (name base : String) (isMain : Bool) (hs : Entered z d0 [] [] s) :
    Yields (NoneMissing d0) (startClass (writer z) name base isMain) s fun _ => Accounted z d0 [] [] := by
  have noted := startedNames_start name base isMain s.history
  refine (⟨nofun, fun names => ?_⟩ : Accounted z d0 [] [] (endState (startClass (writer z) name base isMain s)))
  have names : NewNames d0.classes (startedNames s.history ++ [name]) := noted ▸ names
  obtain ⟨nodup, new⟩ := names
  obtain ⟨nodup, -, apart⟩ := nodup_append.mp nodup
  obtain ⟨xs, h⟩ := hs ⟨nodup, fun c hc => new c (mem_append_left _ hc)⟩
  have other : name ∉ startedNames s.history := fun hn => apart name hn name mem_cons_self rfl
  have books := h.unopened h0 other
  have tables := s.desk.classes.tables_declare name base
  have silent : Woven (([] : List Entry).map Entry.text) "" := .nil .empty
  refine ⟨xs, h.enter (.same (fun c => ?_) (fun c => congrArg Table.keys (tables c).1)
    (fun c => congrArg Table.keys (tables c).2.1) fun c => by rw [← (tables c).2.2]; exact Subset.refl _)
    ⟨[.defineClass name base s.isTool isMain, .enterClass name], "", rfl, String.append_empty.symm,
    fun _ _ _ account => ?_⟩
    ?_ ?_ (fun c hc => ?_) ⟨rfl, rfl⟩ fun c hc outside => ?_⟩
  · refine (congrArg ClassDraft.books
      (State.draftOf_define { s.desk.pages.own.use [base] with className := name } _ c)).trans ?_
    split
    · next hc => exact hc ▸ books.symm
    · rfl
  · have both := (account.member (q := .enterClass name) rfl silent).member
      (q := .defineClass name base s.isTool isMain) rfl silent
    rwa [append_nil, String.append_empty] at both
  · exact noted ▸ subset_append_left ..
  · exact (append_nil _).trans (append_nil _)
  · refine noted ▸ mem_append.mpr ?_
    rcases mem_cons.mp hc with rfl | hc
    · exact .inr mem_cons_self
    · exact .inl (h.opened c hc)
  · have hc : c ∈ startedNames s.history ++ [name] := noted ▸ hc
    rcases mem_append.mp hc with hc | hc
    · exact (h.closed c hc).resolve_left fun inside => outside (.tail _ inside)
    · exact absurd (mem_singleton.mp hc ▸ .head _) outside

theorem Registered.ready (h : Registered z d0 [] [] xs s) (hc : s.classes ≠ [])
    (new : NewNames d0.classes (startedNames s.history)) :
    Agrees s.desk s.desk.pages.own.className ∧ MarkersKnown s.desk := by
  have own := (h.within hc).1
  rw [own]
  refine ⟨h.agrees h0 (new.2 _ (h.opened _ (className_mem hc))), fun a ha m hm hne => ?_⟩
  have entered : a ∈ (s.desk.pages.own.draftOf s.className).ledger.markers := by rw [← own]; exact ha
  rw [h.draft h0] at entered
  rcases mem_markers_enterAll _ _ entered with none | ⟨x, hx, source⟩
  · cases none
  · obtain ⟨hx, owner⟩ := mem_filter.mp hx
    rw [Known, own]
    rcases h.known x hx a m source hm hne with known | ⟨-, none⟩
    · exact of_decide_eq_true owner ▸ known
    · cases none

theorem Registered.ended (h : Registered z d0 [] [] xs s) (hc : s.classes ≠ [])
    (new : NewNames d0.classes (startedNames s.history)) (e : Ends z s.desk s'.desk)
    (classes : s'.classes = s.classes) (started : startedNames s'.history = startedNames s.history)
    (outside : q.inBlock = false) (said : Source.ofRequest q = none) (he : ∀ c, q ≠ .enterClass c)
    (asked : s'.asked = q :: s.asked) : ∃ xs, Registered z d0 [] [] xs s' ∧ Sealed z xs s'.desk s.className := by
  obtain ⟨ys, made, none, spent, closes⟩ := e
  have own := (h.within hc).1
  refine ⟨xs ++ ys, h.step (.inl hc) made.toRecords made.className made.sound (.request outside asked made.page) classes
    started ?_ ?_ nofun (fun x hx a m source _ _ => ?_) nofun, ?_, ?_⟩
  · rw [asked, declared, said, none]
    rfl
  · rw [asked, enteredLast_cons he]
  · have told := mem_told_marker hx (made.sound x hx).1 source
    rw [none] at told
    cases told
  · have owned : ownedBy s.className ys = ys :=
      filter_eq_self.mpr fun x hx => decide_eq_true (own ▸ (made.sound x hx).2)
    rw [ownedBy_append, owned]
    refine .append ?_
    rw [← h.draft h0, ← h.enumerators (new.2 _ (h.opened _ (className_mem hc))), ← own]
    exact closes
  · rw [← own, ← made.className]
    exact spent

/-- **The end of a class.** -/
theorem endClass_registers : Keeps (registerCourse z d0 []) (Read.endClass (writer z)) := by
  refine keeps_register.mpr fun s hs => .bind_eq rfl ?_
  refine (ask_yields (R := fun _ d' => ∃ xs, Registered z d0 [] [] xs s ∧ Ends z s.desk d') fun names => ?_).bind ?_
  · obtain ⟨xs, h⟩ := hs.2 names
    obtain ⟨agrees, known⟩ := h.ready h0 hs.1 names
    exact (endClass_runs agrees known).mono fun _ _ e => ⟨xs, h, e⟩
  rintro _ _ ⟨d, rfl, done⟩
  obtain ⟨inner, outer, stack⟩ := exists_cons_of_ne_nil hs.1
  have current : s.className = inner := by rw [Reader.className, stack]; rfl
  obtain ⟨l, hl⟩ : ∃ l, l = s.enclosing := ⟨_, rfl⟩
  have left : l ≠ [] ∧ (∀ c ∈ l, c ∈ s.classes) ∧ ∀ c ∈ s.classes, c ∉ l → c = s.className := by
    rw [hl, Reader.enclosing, current, stack]
    split
    · next more =>
      exact ⟨by rintro rfl; simp at more, fun c => mem_cons_of_mem _,
        fun c hc => (mem_cons.mp hc).resolve_right⟩
    · exact ⟨cons_ne_nil _ _, fun _ hc => hc, fun _ hc none => absurd hc none⟩
  show Accounted z d0 [] [] { s with
    classes := s.enclosing
    asked := .enterClass (s.enclosing.headD "") :: .endClass s.className :: s.asked
    history := .closed :: s.history
    desk := { d with pages := { d.pages with own := { d.pages.own with
      className := s.enclosing.headD "" } } } }
  rw [← hl]
  have started := startedNames_note (n := .closed) rfl s.history
  refine ⟨left.1, fun names => ?_⟩
  obtain ⟨xs, h, e⟩ := done (started ▸ names)
  obtain ⟨ys, h', ended⟩ :
      ∃ ys, Registered z d0 [] [] ys { s with asked := .endClass s.className :: s.asked, desk := d } ∧
        Sealed z ys d s.className :=
    h.ended h0 hs.1 (started ▸ names) e rfl rfl (q := .endClass s.className) rfl rfl (fun _ h => by cases h) rfl
  refine ⟨ys, h'.enter (.same (fun _ => rfl) (fun _ => rfl) (fun _ => rfl) fun _ => Subset.refl _)
    (.request (q := .enterClass _) rfl rfl ⟨"", String.append_empty.symm, .nil .empty⟩) (started ▸ Subset.refl _)
    (append_nil _) (fun c hc => started ▸ h'.opened c (left.2.1 c hc)) ⟨rfl, rfl⟩
    fun c hc outside => ?_⟩
  rcases h'.closed c (started ▸ hc) with inside | sealed
  · rw [left.2.2 c inside outside]
    exact ended
  · exact sealed

theorem registerCourse_whole {r : Rules (Pages State)} (H : RulesKeep (bodyCourse z) r) :
    (registerCourse z d0 []).WholeLaws (writer z) r where
  toMoves := registerCourse_moves ..
  plainItem := plainItem_registers H
  innerClass {inner} hi s _ := by
    have M := registerCourse_moves z d0 []
    have L := bodyCourse_laws z
    have deeper : Keeps (registerCourse z d0 []) goDeeper := fun s h =>
      h.calm ⟨.same rfl rfl rfl, .same rfl rfl rfl (startedNames_note rfl _) rfl⟩
    have kept : Keeps (registerCourse z d0 []) (do advance; innerClass (writer z) inner) :=
      .bind M (.advance M) fun _ => .bind M (.consume M) fun _ => .bind M (body_registers (.nameAfter L _ _)) fun _ =>
        .bind M (keeps_register.mpr fun _ hs => startClass_yields h0 _ _ _ hs.2) fun _ => .skip M _ <|
        .bind M deeper fun _ => .bind M hi fun _ => endClass_registers h0
    exact kept s
  level s n h := h.calm ⟨.same rfl rfl rfl, .same rfl rfl rfl rfl rfl⟩
  note n hn s h := h.calm ⟨.same rfl rfl rfl,
    .same rfl rfl rfl (startedNames_note (by cases n <;> first | rfl | cases hn) _) rfl⟩
  endLine := body_registers (.endLine (bodyCourse_laws z))
  comment _ := body_registers ((bodyCourse_laws z).ask _ rfl)
  block := body_registers (H.blocked (bodyCourse_laws z).logic)

/-! ## Scripts -/

theorem upToEnd_yields (n : Nat) (name : String) (hs : Entered z d0 [] [] s) :
    Yields (NoneMissing d0) (upToEnd (writer z) (rules (writer z) n) name) s fun _ => Accounted z d0 [] [] := by
  have L := bodyCourse_laws z
  have header : Yields (NoneMissing d0) (header (writer z) name) s fun _ => Accounted z d0 [] [] := by
    rw [header_eq]
    refine (body_yields (.headerNames L ?_ ?_ name) s).bind fun names s1 ⟨_, calm⟩ => ?_
    · exact fun s => ⟨.same rfl rfl rfl, .same rfl rfl rfl (startedNames_note rfl _) rfl⟩
    · exact fun s b => ⟨.same rfl rfl rfl, .same rfl rfl rfl rfl rfl⟩
    · exact (startClass_yields h0 _ _ true (hs.calm calm)).bind fun _ s2 h2 =>
        keeps_register.mp (body_registers (.endLine L)) s2 h2
  exact header.bind fun _ s1 h1 => keeps_register.mp (registerCourse_whole h0 (.rules L n)).logic.scriptBody s1 h1

end start

theorem endScript_runs (below : d.pages.below = [])
    (agrees : Agrees d d.pages.own.className) (known : MarkersKnown d) : Runs (endScript z) d fun _ d' => Ends z d d' ∧
      d'.pages.own.implementation = implementationText d'.pages.own d'.pages.page := by
  refine (endClass_runs agrees known).with_eq.bind fun _ d1 ⟨served, ended⟩ => ?_
  have flat : d1.pages.below = [] := ((writer_stacks z).serve (.endClass "") d () d1 rfl served).1.trans below
  have flushed : Page.flush d1 = .ok () d1 := by
    show EStateM.Result.ok () { d1 with pages := { d1.pages with
      page := Page.flushPages d1.pages.below d1.pages.page, below := [] } } = _
    rw [flat, Page.flushPages, ← flat]
  refine .bind_eq flushed <| .bind_eq rfl <| (closeScopes_still _ d1).bind fun _ d2 h2 => ?_
  have still (header implementation : String) : Still d2 { d2 with pages := { d2.pages with own := { d2.pages.own with
      header := header, implementation := implementation } } } :=
    .silent rfl rfl (.of_drafts rfl rfl)
  refine .bind_eq rfl ⟨ended.still
    (h2.trans (still (headerText d2.pages.own) (implementationText d2.pages.own d2.pages.page))), ?_⟩
  dsimp only
  unfold implementationText
  rfl

/-- The register of a script that was read to its end. -/
structure Finished (z : Settings) (d0 : Desk (Pages State)) (xs : List Entry) (s : Reader (Pages State)) : Prop extends
    Registered z d0 [] [] xs s where
  ended : ∀ c ∈ startedNames s.history, Sealed z xs s.desk c
  implementation : s.desk.pages.own.implementation = implementationText s.desk.pages.own s.desk.pages.page

/-- **A whole script.** -/
theorem script_yields (n : Nat) (name : String) (hd : s.desk.pages = start name) (hc : s.classes = [])
    (hh : s.history = []) (ha : s.asked = []) :
    Yields (NoneMissing s.desk) (script (writer z) (rules (writer z) n) name) s fun _ s' =>
      NewNames s.desk.classes (startedNames s'.history) → ∃ xs, Finished z s.desk xs s' := by
  have h0 : s.desk.pages.own.drafts = {} := by rw [hd]; rfl
  have first : Entered z s.desk [] [] s := fun _ => ⟨[], (Still.refl _).made.toRecords (z := z),
    ⟨"", String.append_empty.symm, by rw [ha]; exact .nil⟩, nofun, by rw [ha]; rfl, by rw [hc]; nofun,
    fun h => absurd hc h, nofun, nofun, by rw [hh]; nofun⟩
  rw [script_eq]
  refine (upToEnd_yields h0 n name first).with_eq.bind fun _ s1 ⟨read, h1⟩ => ?_
  obtain ⟨flat, stack⟩ := upToEnd_flat (writer_stacks z) hc (by rw [hd]; rfl) read
  refine (ask_yields (R := fun _ d' => ∃ xs, Registered z s.desk [] [] xs s1 ∧ Ends z s1.desk d' ∧
    d'.pages.own.implementation = implementationText d'.pages.own d'.pages.page) fun names => ?_).mono ?_
  · obtain ⟨xs, h⟩ := h1.2 names
    obtain ⟨agrees, known⟩ := h.ready h0 h1.1 names
    exact (endScript_runs flat agrees known).mono fun _ _ e => ⟨xs, h, e⟩
  · rintro _ _ ⟨d, rfl, done⟩ names
    obtain ⟨xs, h, e, text⟩ := done names
    obtain ⟨ys, h', ended⟩ : ∃ ys, Registered z s.desk [] [] ys { s1 with asked := .endScript :: s1.asked, desk := d } ∧
        Sealed z ys d s1.className := h.ended h0 h1.1 names e rfl rfl (q := .endScript) rfl rfl nofun rfl
    refine ⟨ys, h', fun c hc => ?_, text⟩
    rcases h'.closed c hc with here | sealed
    · have main : s1.className = c := by
        rw [Reader.className, stack]
        exact (mem_singleton.mp (show c ∈ [_] from stack ▸ here)).symm
      exact main ▸ ended
    · exact sealed

/-! ## The implementation -/

/-- The lines at the start of an implementation. -/
def includes (name : String) : String :=
  "\n#include \"" ++ name ++ ".hpp\"\n\n#include <godot_cpp/core/object.hpp>\n" ++
    "#include <godot_cpp/core/class_db.hpp>\n" ++ "#include <godot_cpp/variant/utility_functions.hpp>\n\n\n"

theorem implementationForm_named (name : String) :
    Text.replaceAll implementationForm "__HEADER__" name = includes name := by
  have form : "\n#include \"__HEADER__.hpp\"\n\n#include <godot_cpp/core/object.hpp>\n" =
      "\n#include " ++ String.singleton '"' ++ "__HEADER__" ++ ".hpp\"\n\n#include <godot_cpp/core/object.hpp>\n" := by
    simp
  have start : "\n#include \"" = "\n#include " ++ String.singleton '"' := by simp
  unfold implementationForm includes
  rw [form, start, String.append_assoc, String.append_assoc]
  rw [Text.replaceAll_once (x := '_') (y := 'H') (by decide) (by decide) (by decide) ?_ (by decide)]
  · simp only [String.append_assoc]
  · simp only [String.toList_append, mem_append, not_or]
    exact ⟨by decide, by decide, by decide⟩

/-- **An implementation is its page** after some lines, up to what is tidied. -/
theorem implementationText_code (o : State) (page : String) :
    (implementationText o page).toList.filter isCode = (includes o.scriptName ++ page).toList.filter isCode := by
  have tidied (text : String) : (tidy maxLineEnds text).toList.filter isCode = text.toList.filter isCode := by
    rw [toList_tidy]
    exact filter_tidyRest (.start 0)
  have spaced : (Text.replaceAll page "\n\x7d" "\n\x7d\n\n").toList.filter isCode = page.toList.filter isCode := by
    rw [Text.toList_replaceAll _ _ (by decide)]
    exact Text.filter_swap (by decide) (by decide) _
  rw [implementationText, tidied, implementationForm_named, String.toList_append, filter_append, spaced,
    String.toList_append, filter_append]

/-- The manner of actions that keep the name of the script. -/
def sameScript : PageManner State SameClass := .ofPages
    (.ending (fun d d' => d'.pages.own.scriptName = d.pages.own.scriptName) (fun _ => rfl) fun h h' => h'.trans h)
    SameClass.refl (fun _ _ h => h.2) fun _ _ => rfl

theorem serve_sameScript {d' : Desk (Pages State)} (h : (writer z).serve q d = .ok () d') :
    d'.pages.own.scriptName = d.pages.own.scriptName :=
  (serve_allowed z sameScript q (fun _ _ _ h => h.2) (fun _ => .of_all (fun _ _ _ => rfl) fun _ _ => trivial)
    (fun _ _ _ => rfl) (fun _ _ _ _ _ _ => rfl) fun _ => trivial).ok h

theorem scriptName_of_session {qs : List Request} (h : Session (writer z) d0 qs d) :
    d.pages.own.scriptName = d0.pages.own.scriptName := by
  induction h with
  | start => rfl
  | read _ hp ih => rwa [hp]
  | takePage _ taken ih => cases taken; exact ih
  | serve _ _ served ih => exact (serve_sameScript served).trans ih
  | opens _ enters defines ih =>
    exact (serve_sameScript defines).trans ((serve_sameScript enters).trans ih)

/-! ## Runs -/

/-- The entries of a run: they are what was asked for, and the implementation is made of them and of statements. -/
structure Registry (z : Settings) (name : String) (o : Outcome (Pages State)) (xs : List Entry) : Prop where
  written : ∃ page, Account z o.asked xs page ∧
    o.desk.pages.own.implementation.toList.filter isCode = (includes name ++ page).toList.filter isCode
  sound : ∀ x ∈ xs, x.Sound z ∧ x.owner ∈ startedNames o.history
  said : told xs = declared o.asked

theorem run_registers {name text : String} (hd : d.pages = start name)
    (new : NewNames d.classes (startedNames (run (writer z) name text d).history)) :
    (∀ m, (run (writer z) name text d).fault ≠ some (.unknownEntry m)) ∧
      ((run (writer z) name text d).fault = none → ∃ xs, Registry z name (run (writer z) name text d) xs ∧
        ∀ c ∈ startedNames (run (writer z) name text d).history, Closes z c { name := c } [] (ownedBy c xs) ∧
          (ownedBy c xs).flatMap Entry.waits = (ownedBy c xs).flatMap Entry.first) := by
  cases hl : (scan (text ++ "\n")).lexemes with
  | nil =>
    rw [run_nil _ _ _ hl]
    exact ⟨nofun, nofun⟩
  | cons first rest =>
    have named := fun ok : (run (writer z) name text d).fault = none => scriptName_of_session (run_session ok)
    rw [run_cons _ _ _ hl] at new named ⊢
    have yields := script_yields (depth (rest.length + 1)) name hd rfl rfl rfl (z := z)
      (s := startOf text d first rest)
    unfold Yields at yields
    generalize script (writer z) _ name _ = result at yields new named ⊢
    cases result with
    | error e s => exact ⟨fun m hm => yields new m (Option.some.inj hm), nofun⟩
    | ok a s =>
      refine ⟨nofun, fun _ => ?_⟩
      obtain ⟨xs, h⟩ := yields new
      obtain ⟨page, added, account⟩ := h.page
      refine ⟨xs, ⟨⟨page, account, ?_⟩, h.sound, h.said⟩, fun c hc => ⟨(h.ended c hc).closes, ?_⟩⟩
      · have blank : d.pages.page = "" ∧ d.pages.own.scriptName = name := by rw [hd]; exact ⟨rfl, rfl⟩
        have added : s.desk.pages.page = page := by
          rw [added]
          exact (congrArg (· ++ page) blank.1).trans String.empty_append
        have named : s.desk.pages.own.scriptName = name := (named rfl).trans blank.2
        show s.desk.pages.own.implementation.toList.filter isCode = _
        rw [h.implementation, implementationText_code, named, added]
      · have empty : ((d.print first.notices).pages.own.draftOf c).onready = [] := by
          show (d.pages.own.draftOf c).onready = []
          rw [hd]
          rfl
        have waits := h.records.waits c
        rwa [empty, (h.ended c hc).none, append_nil] at waits

/-! ## Methods that are bound -/

/-- The methods among some entries. -/
def methodsOf (xs : List Entry) : List Method :=
  xs.filterMap fun x => match x.source with
    | .method m => some m
    | _ => none

/-- The names of methods, each once, in the order in which they come first, with the parameters of the last method of
this name. -/
structure ArgsOf (ms : List Method) (args : Table (List String)) : Prop where
  names : args.keys = (ms.map (·.name)).foldl addName []
  nodup : args.keys.Nodup
  last : ∀ n, args.find? n = (ms.reverse.find? (·.name = n)).map (·.params.keys)

theorem argsOf_enterAll (c : String) (xs : List Entry) :
    ArgsOf (methodsOf xs) (({ name := c } : ClassDraft).enterAll xs).methodArgs := by
  induction xs using reverseRecOn with
  | nil => exact ⟨rfl, .nil, fun _ => rfl⟩
  | append_singleton xs x ih =>
    have entered : ({ name := c } : ClassDraft).enterAll (xs ++ [x]) =
        (({ name := c } : ClassDraft).enterAll xs).enter x.source := foldl_append ..
    have methods : methodsOf (xs ++ [x]) = methodsOf xs ++ methodsOf [x] := filterMap_append ..
    rw [entered, methods]
    cases hx : x.source with
    | method m =>
      have one : methodsOf [x] = [m] := by simp [methodsOf, hx]
      rw [one]
      refine ⟨?_, ?_, fun n => ?_⟩
      · rw [ClassDraft.enter, Table.keys_put, ih.names, map_append, foldl_append]
        rfl
      · rw [ClassDraft.enter, Table.keys_put, addName]
        split
        · exact ih.nodup
        · next new =>
          rw [← concat_eq_append]
          exact ih.nodup.concat new
      · rw [ClassDraft.enter, Table.find?_put, ih.last]
        by_cases hn : m.name = n <;> simp [hn]
    | _ =>
      have none : methodsOf [x] = [] := by simp [methodsOf, hx]
      rw [none, append_nil]
      exact ih

/-- Whether an entry of this source is bound. -/
def Source.isBound : Source → Bool
  | .method _ | .marker _ | .signal _ _ => true
  | _ => false

theorem ClassDraft.Bare.of_enter {b : ClassDraft} {s : Source} (h : (b.enter s).Bare) : s.isBound = false ∧ b.Bare := by
  have added (names : List String) (n : String) : addName names n ≠ [] := by
    unfold addName
    split
    · exact ne_nil_of_mem ‹_›
    · simp
  cases s with
  | method m =>
    rw [ClassDraft.Bare, ClassDraft.enter, Table.keys_put] at h
    exact absurd h.2.1 (added _ _)
  | marker a => exact absurd h.1 (by simp [ClassDraft.enter])
  | signal name params =>
    rw [ClassDraft.Bare, ClassDraft.enter, Table.keys_put] at h
    exact absurd h.2.2 (added _ _)
  | _ => exact ⟨rfl, h⟩

theorem unbound_of_bare (xs : List Entry) : ∀ b : ClassDraft, (b.enterAll xs).Bare →
    b.Bare ∧ ∀ x ∈ xs, x.source.isBound = false := by
  induction xs with
  | nil => exact fun _ h => ⟨h, nofun⟩
  | cons x xs ih =>
    intro b h
    obtain ⟨bare, rest⟩ := ih (b.enter x.source) h
    exact ⟨bare.of_enter.2, forall_mem_cons.mpr ⟨bare.of_enter.1, rest⟩⟩

/-- The entries of a class: none is bound, or they end with the method that binds all entries before it. -/
def BindsOnce (z : Settings) (c : String) (xs : List Entry) : Prop :=
  (∀ x ∈ xs, x.source.isBound = false) ∨ ∃ before x code, xs = before ++ [x] ∧
    x.source = .method { name := "_bind_methods", code := code, static := true } ∧
    ArgsOf (methodsOf before) (({ name := c } : ClassDraft).enterAll before).methodArgs ∧
    BindCode z c (({ name := c } : ClassDraft).enterAll before) (enumeratorsAfter [] before) code

theorem Closes.binds (h : Closes z c { name := c } [] xs) : BindsOnce z c xs := by
  rcases h with bare | ⟨before, x, code, eq, source, bind⟩
  · exact .inl (unbound_of_bare xs _ bare).2
  · exact .inr ⟨before, x, code, eq, source, argsOf_enterAll c before, bind⟩

/-- A script with an inner class. A property is annotated and gets its methods, one of each class waits for `_ready`,
which only the inner class has, and a method is defined twice. -/
def nestedScript : String :=
  "extends Node\n@export var x = 1\n@onready var y = x\nenum E \x7bP\x7d\nfunc f(a):\n\tpass\n" ++
    "class I:\n\t@onready var z = 2\n\tfunc _ready():\n\t\tpass\n\tfunc g(b, c):\n\t\tpass\n" ++
    "signal s\nfunc f(d):\n\tpass\n"

theorem nestedScript_runs : startedNames (run (writer {}) "S" nestedScript ⟨{}, #[], start "S"⟩).history = ["S", "I"] ∧
    (run (writer {}) "S" nestedScript ⟨{}, #[], start "S"⟩).fault = none ∧
    (declared (run (writer {}) "S" nestedScript ⟨{}, #[], start "S"⟩).asked).map (·.1) =
      ["S", "S", "S", "S", "S", "I", "I", "I", "S", "S"] := by
  decide +kernel

theorem nestedScript_new :
    NewNames {} (startedNames (run (writer {}) "S" nestedScript ⟨{}, #[], start "S"⟩).history) := by
  rw [nestedScript_runs.1]
  exact ⟨by decide, fun _ _ => rfl⟩

/-- **Assignments that wait are made once.** Where the names of classes are new and differ, and the run ends well, the
assignments of the properties of each class that wait are those with which its `_ready` methods start, in the same
order. -/
theorem run_assigns_once {name text : String} {d : Desk (Pages State)} (hd : d.pages = start name)
    (new : NewNames d.classes (startedNames (run (writer z) name text d).history))
    (ok : (run (writer z) name text d).fault = none) : ∃ xs, Registry z name (run (writer z) name text d) xs ∧
      ∀ c ∈ startedNames (run (writer z) name text d).history,
        (ownedBy c xs).flatMap Entry.waits = (ownedBy c xs).flatMap Entry.first := by
  obtain ⟨xs, registry, classes⟩ := (run_registers hd new).2 ok
  exact ⟨xs, registry, fun c hc => (classes c hc).2⟩

theorem run_assigns_once_nested : ∃ xs, Registry {} "S" (run (writer {}) "S" nestedScript ⟨{}, #[], start "S"⟩) xs ∧
    ∀ c ∈ startedNames (run (writer {}) "S" nestedScript ⟨{}, #[], start "S"⟩).history,
      (ownedBy c xs).flatMap Entry.waits = (ownedBy c xs).flatMap Entry.first :=
  run_assigns_once rfl nestedScript_new nestedScript_runs.2.1

end CPlusPlus

end GdScribe
