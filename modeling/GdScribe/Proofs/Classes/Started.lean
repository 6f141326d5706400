import GdScribe.Proofs.Reader.CourseScript
import GdScribe.Proofs.Reader.View

/-!
# The classes that a script starts

A script starts a class of its own and one for each inner class. Their names and bases are the words that
stand at these places of its text.

* `wordAt`: the word at a place of a script; past the last one stands the end.
* `headerSays`: the name and the base in the lines before the first member.
* `OpensAt`: the name and the base of an inner class, by the words around its place.

Principal results: `headerNames_tells` and `asWritten_invariant`.
-/

namespace GdScribe

open List

variable {σ α β : Type}

/-- The end of a text. -/
def endWord : Word := (.eof, "EOF")

/-- The word at a place. -/
def wordAt (ws : List Word) (i : Nat) : Word := ws[i]?.getD endWord

/-- The words of a text. -/
def wordsOf (text : String) : List Word := (scan (text ++ "\n")).lexemes.map (·.token.word)

/-! ## Headers -/

/-- The value of the first word. -/
def firstValue (ws : List Word) : String := (wordAt ws 0).2

/-- The words after the first one. -/
def afterFirst : List Word → List Word
  | _ :: w :: ws => w :: ws
  | _ => [endWord]

/-- The words after line ends and comments. -/
def afterLines : List Word → List Word
  | [] => [endWord]
  | w :: ws => if Read.Leads.isLine w.1 then afterLines ws else w :: ws

/-- The words after a mark that stands before the header. -/
def afterTool (ws : List Word) : List Word :=
  if firstValue ws = "@" then
    if firstValue (afterFirst ws) = "tool" then afterFirst (afterFirst ws) else afterFirst ws
  else ws

/-- The name in a line that starts with `word`, or else the given one, and the words after the line. -/
def lineSays (word default : String) (ws : List Word) : String × List Word :=
  if firstValue ws = word then (firstValue (afterFirst ws), afterLines (afterFirst (afterFirst ws)))
  else (default, ws)

/-- The name and the base of a script's own class. A name that stands after the base counts. -/
def headerSays (scriptName : String) (ws : List Word) : String × String :=
  let named := lineSays "class_name" scriptName (afterLines (afterTool (afterLines ws)))
  let based := lineSays "extends" "Object" named.2
  (if firstValue based.2 = "class_name" then firstValue (afterFirst based.2) else named.1, based.1)

/-- The word in view and the words that follow. -/
def Reader.upcoming (s : Reader σ) : List Word := s.current.word :: s.ahead.map (·.token.word)

theorem Reader.upcoming_next (s : Reader σ) : s.next.upcoming = afterFirst s.upcoming := by
  unfold next upcoming
  cases s.ahead <;> rfl

theorem Reader.firstValue_upcoming (s : Reader σ) : firstValue s.upcoming = s.current.value := rfl

namespace Read

variable {w : Writer σ} {s : Reader σ}

/-- What an action gives, and what comes after it, by what comes before it. -/
def Takes (x : ReadM σ α) (s : Reader σ) (a : α) (ws : List Word) : Prop :=
  Goes x s (fun b s' => b = a ∧ s'.upcoming = ws)

theorem Takes.bind {x : ReadM σ α} {f : α → ReadM σ β} {a : α} {b : β} {ws vs : List Word}
    (h : Takes x s a ws) (hf : ∀ s' : Reader σ, s'.upcoming = ws → Takes (f a) s' b vs) : Takes (x >>= f) s b vs :=
  Goes.bind h fun _ s' ⟨ha, hs⟩ => ha ▸ hf s' hs

theorem Takes.pure (a : α) : Takes (pure a : ReadM σ α) s a s.upcoming := ⟨rfl, rfl⟩

/-- An action that takes no word. -/
def Waits (x : ReadM σ Unit) : Prop := ∀ s, Takes x s () s.upcoming

theorem Waits.bind {x : ReadM σ Unit} {f : Unit → ReadM σ Unit} (hx : Waits x) (hf : Waits (f ())) :
    Waits (x >>= f) :=
  fun s => (hx s).bind fun s' h => h ▸ hf s'

theorem Waits.ite {p : Prop} [Decidable p] {x y : ReadM σ Unit} (hx : Waits x) (hy : Waits y) :
    Waits (if p then x else y) := by
  split
  · exact hx
  · exact hy

theorem ask_waits (q : Request) : Waits (ask w q) := by
  intro s
  have served : Takes (atDesk (w.serve q)) { s with asked := q :: s.asked } () s.upcoming := by
    unfold Takes Goes atDesk
    cases w.serve q s.desk with
    | ok a d => exact ⟨rfl, rfl⟩
    | error e d => trivial
  exact Goes.bind_eq rfl served

theorem writeRemark_waits (jumped : Nat) (r : Remark) : Waits (writeRemark w jumped r) := by
  refine .ite ((ask_waits _).bind ?_) ?_
  all_goals exact (ask_waits _).bind (ask_waits _)

theorem leaveScopes_waits (indent : Option Nat) : Waits (leaveScopes w indent) := by
  have closed (n : Nat) : Waits (closeScopes w n) := by
    induction n with
    | zero => exact fun s => Takes.pure ()
    | succ n ih => exact (ask_waits _).bind ih
  have noted : Waits (noteLine indent : ReadM σ Unit) := by
    intro s
    cases indent <;> exact ⟨rfl, rfl⟩
  refine noted.bind fun s => Goes.bind_eq rfl ((closed _).bind ?_ s)
  intro s'
  split <;> exact ⟨rfl, rfl⟩

theorem passLines_takes (n : Nat) :
    ∀ (p : Passed) (s : Reader σ), Goes (passLines w n p) s (fun _ s' => s'.upcoming = afterLines s.upcoming) := by
  induction n with
  | zero => exact fun p s => trivial
  | succ n ih =>
    intro p s
    have on (s' : Reader σ) (hs : s'.upcoming = s.next.upcoming) (hk : Leads.isLine s.current.kind = true)
        (p : Passed) : Goes (passLines w n p) s' (fun _ s'' => s''.upcoming = afterLines s.upcoming) := by
      refine (ih p s').mono (fun _ s'' h => ?_) fun _ h => h
      have line : afterLines s.upcoming = afterLines (s.ahead.map (·.token.word)) := if_pos hk
      rw [h, hs, Reader.upcoming_next, line]
      unfold Reader.upcoming
      cases s.ahead <;> rfl
    have flushed (p : Passed) : Goes (passLines.flush w p) s (fun _ s' => s'.upcoming = s.upcoming) := by
      unfold passLines.flush
      cases p.remark with
      | none => exact .of_eq rfl rfl
      | some r =>
        exact Goes.bind (writeRemark_waits _ r s) fun _ s' h => .of_eq rfl h.2
    refine .bind_eq rfl ?_
    cases hk : s.current.kind with
    | lineEnd => exact .bind_eq rfl (on s.next rfl (by rw [hk]; rfl) _)
    | comment | longString =>
      refine (flushed p).bind fun jumped s' hs => .bind_eq (consume_apply s') (on _ ?_ (by rw [hk]; rfl) _)
      show s'.next.upcoming = _
      rw [Reader.upcoming_next, Reader.upcoming_next, hs]
    | _ =>
      refine .of_eq rfl ?_
      have code : afterLines s.upcoming = s.upcoming := by
        refine if_neg ?_
        show ¬ Leads.isLine s.current.kind = true
        rw [hk]
        exact Bool.false_ne_true
      exact code.symm

theorem endLine_takes (s : Reader σ) : Takes (endLine w) s () (afterLines s.upcoming) := by
  refine Goes.bind_eq rfl <| (passLines_takes _ _ s).bind fun p s' hs => ?_
  have written : Waits (writePassed w p) := by
    unfold writePassed
    cases p.remark with
    | some r => exact writeRemark_waits _ r
    | none => exact ask_waits _
  rw [← hs]
  exact (leaveScopes_waits p.indent).bind written s'

theorem nameAfter_takes (word default : String) (s : Reader σ) : Goes (nameAfter word default) s
      (fun name _ => name = if s.current.value = word then s.next.current.value else default) :=
  .ifExpect word (fun h => .of_eq (consume_apply s.next) (if_pos h).symm) fun h => .of_eq rfl (if_neg h).symm

theorem lineName_takes (word default : String) (s : Reader σ) :
    Takes (lineName w word default) s (lineSays word default s.upcoming).1 (lineSays word default s.upcoming).2 := by
  unfold lineSays
  rw [Reader.firstValue_upcoming]
  refine Goes.ifExpect word (fun h => ?_) fun h => ?_
  · rw [if_pos h, ← Reader.upcoming_next, ← Reader.upcoming_next]
    exact Goes.bind_eq (consume_apply s.next) <| (endLine_takes _).bind fun _ h => h ▸ Takes.pure _
  · rw [if_neg h]
    exact Takes.pure _

theorem expectTool_takes (s : Reader σ) :
    Goes (expectPair "@" "tool") s (fun _ s' => s'.upcoming = afterTool s.upcoming) := by
  unfold afterTool
  rw [Reader.firstValue_upcoming]
  refine .ifExpect _ (fun h => ?_) fun h => .of_eq rfl (if_neg h).symm
  rw [if_pos h, ← Reader.upcoming_next, Reader.firstValue_upcoming]
  unfold Goes
  rw [expect_apply]
  by_cases tool : s.next.current.value = "tool"
  · rw [if_pos tool, if_pos tool]
    exact Reader.upcoming_next _
  · rw [if_neg tool, if_neg tool]

/-- **The header is read as it stands in the script.** -/
theorem headerNames_tells (scriptName : String) (s : Reader σ) :
    Goes (headerNames w scriptName) s (fun names _ => names = headerSays scriptName s.upcoming) := by
  refine .bind_eq rfl <| Goes.bind (endLine_takes _) fun _ s1 ⟨_, h1⟩ => ?_
  refine (expectTool_takes s1).bind fun isTool s2 h2 => .bind_eq rfl ?_
  refine Goes.bind (endLine_takes _) fun _ s3 ⟨_, h3⟩ => ?_
  refine Goes.bind (lineName_takes _ _ s3) fun name s4 ⟨hn, h4⟩ => ?_
  refine Goes.bind (lineName_takes _ _ s4) fun base s5 ⟨hb, h5⟩ => ?_
  refine (nameAfter_takes _ _ s5).bind fun name' s6 h6 => .of_eq rfl ?_
  have start : s3.upcoming = afterLines (afterTool (afterLines s.upcoming)) := by
    rw [h3]
    show afterLines s2.upcoming = _
    rw [h2, h1]
    rfl
  rw [← Reader.firstValue_upcoming, ← Reader.firstValue_upcoming, Reader.upcoming_next] at h6
  rw [h6, h5, hb, h4, hn, start]
  rfl

end Read

/-! ## Inner classes -/

/-- An inner class with a name and a base stands in a script. -/
def OpensAt (ws : List Word) (name base : String) : Prop :=
  ∃ i, (wordAt ws i).2 = "class" ∧ (wordAt ws (i + 1)).2 = name ∧
    base = if (wordAt ws (i + 2)).2 = "extends" then (wordAt ws (i + 3)).2 else "Object"

/-- What is noted of the start of a class is what stands in the script. -/
def Note.AsWritten (scriptName : String) (ws : List Word) : Note → Prop
  | .script name base => (name, base) = headerSays scriptName ws
  | .opened name base => OpensAt ws name base
  | _ => True

/-- A reader in the words of a script: it has passed as many of them as it has moved on. -/
structure Reader.Within (ws : List Word) (s : Reader σ) : Prop where
  current : s.current.word = wordAt ws s.moves
  ahead : s.ahead.map (·.token.word) = ws.drop (s.moves + 1)

variable {ws : List Word} {s : Reader σ}

theorem Reader.Within.next (h : s.Within ws) : s.next.Within ws := by
  obtain ⟨-, ahead⟩ := h
  unfold Reader.next
  cases ha : s.ahead with
  | nil =>
    rw [ha] at ahead
    have passed : ws.length ≤ s.moves + 1 := drop_eq_nil_iff.mp ahead.symm
    constructor
    · show endWord = ws[s.moves + 1]?.getD endWord
      rw [getElem?_eq_none passed]
      rfl
    · show [] = ws.drop (s.moves + 1 + 1)
      rw [drop_eq_nil_of_le (Nat.le_succ_of_le passed)]
  | cons l rest =>
    rw [ha] at ahead
    have bound : s.moves + 1 < ws.length := by
      refine Nat.lt_of_not_le fun hb => ?_
      rw [drop_eq_nil_of_le hb] at ahead
      cases ahead
    rw [drop_eq_getElem_cons bound] at ahead
    injection ahead with first rest
    constructor
    · show l.token.word = ws[s.moves + 1]?.getD endWord
      rw [getElem?_eq_getElem bound]
      exact first
    · exact rest

theorem Reader.Within.value (h : s.Within ws) : s.current.value = (wordAt ws s.moves).2 := congrArg Prod.snd h.current

namespace Read

/-- A reader in the words of a script, which has noted the starts of classes as they are written. -/
structure AsWritten (scriptName : String) (ws : List Word) (s : Reader σ) : Prop where
  within : s.Within ws
  notes : ∀ n ∈ s.history, n.AsWritten scriptName ws

variable {scriptName : String} {ws : List Word} {s s' : Reader σ} {w : Writer σ}

section

variable (h : AsWritten scriptName ws s)

include h

theorem AsWritten.next : AsWritten scriptName ws s.next := by
  refine ⟨h.within.next, ?_⟩
  have same : s.next.history = s.history := by
    unfold Reader.next
    split <;> rfl
  rw [same]
  exact h.notes

theorem AsWritten.note {n : Note} (hn : n.AsWritten scriptName ws) :
    AsWritten scriptName ws { s with history := n :: s.history } :=
  ⟨⟨h.within.current, h.within.ahead⟩, forall_mem_cons.mpr ⟨hn, h.notes⟩⟩

theorem AsWritten.atDesk (act : DeskM σ α) :
    AsWritten scriptName ws (endState (atDesk act s)) := by
  rw [endState_atDesk]
  exact ⟨⟨h.within.current, h.within.ahead⟩, h.notes⟩

end

theorem asWritten_body (scriptName : String) (ws : List Word) (w : Writer σ) :
    BodyInvariant (AsWritten scriptName ws) w where
  next _ h := h.next
  log _ _ h := ⟨⟨h.within.current, h.within.ahead⟩, h.notes⟩
  strings _ _ h := ⟨⟨h.within.current, h.within.ahead⟩, h.notes⟩
  inParens _ _ h := ⟨⟨h.within.current, h.within.ahead⟩, h.notes⟩
  level _ _ h := ⟨⟨h.within.current, h.within.ahead⟩, h.notes⟩
  asked _ _ h := ⟨⟨h.within.current, h.within.ahead⟩, h.notes⟩
  serve _ q _ h := h.atDesk (w.serve q)
  takePage _ h := h.atDesk w.takePage
  note s n hn h := h.note (by cases n <;> trivial)
  learn s name type h := by
    have learned := h.note (n := .learned name type) trivial
    exact ⟨⟨learned.within.current, learned.within.ahead⟩, learned.notes⟩
  use s name h := h.note trivial

theorem consume_within (h : AsWritten scriptName ws s) :
    Goes consume s (fun v s' => AsWritten scriptName ws s' ∧ v = (wordAt ws s.moves).2 ∧
      s'.moves = s.moves + 1) (AsWritten scriptName ws) := by
  have noted := h.next
  exact .of_eq (consume_apply s)
    ⟨⟨⟨noted.within.current, noted.within.ahead⟩, noted.notes⟩, h.within.value, moves_next s⟩

theorem nameAfter_within (w : Writer σ) (h : AsWritten scriptName ws s) (word default : String) :
    Goes (nameAfter word default) s (fun name s' => AsWritten scriptName ws s' ∧
      name = if (wordAt ws s.moves).2 = word then (wordAt ws (s.moves + 1)).2 else default)
      (AsWritten scriptName ws) := by
  rw [← h.within.value, ← moves_next, ← h.next.within.value]
  exact ((keeping_goes (.nameAfter (asWritten_body scriptName ws w).laws word default) h).and
    (nameAfter_takes word default s)).mono (fun _ _ h => h) fun _ h => h.1

theorem asWritten_startClass {name base : String} (isMain : Bool)
    (hn : (if isMain = true then .script name base else .opened name base : Note).AsWritten scriptName ws)
    (h : AsWritten scriptName ws s) :
    Goes (startClass w name base isMain) s (fun _ => AsWritten scriptName ws) (AsWritten scriptName ws) := by
  have asks (q : Request) : Keeps (.keeping (AsWritten scriptName ws)) (ask w q) :=
    keeping_serve (asWritten_body scriptName ws w) fun s h => h.atDesk (w.serve q)
  have started := h.note hn
  refine .bind_eq rfl <| .bind_eq rfl ?_
  refine keeping_goes (keeping_bind (.get_bind fun _ => asks _) fun _ => .get_bind fun _ => asks _) ?_
  exact ⟨⟨started.within.current, started.within.ahead⟩, started.notes⟩

theorem asWritten_record (s : Reader σ) (e : ClassEntry) (h : AsWritten scriptName ws s) :
    AsWritten scriptName ws (endState (record e s)) := by
  have recorded := h.note (n := .recorded s.className e) trivial
  exact ⟨⟨recorded.within.current, recorded.within.ahead⟩, recorded.notes⟩

/-- **Inner classes are noted as they are written.** -/
theorem asWritten_invariant (scriptName : String) (ws : List Word) (w : Writer σ) :
    ClassInvariant (AsWritten scriptName ws) w where
  toBodyInvariant := asWritten_body scriptName ws w
  serveMember _ q _ h := h.atDesk (w.serve q)
  record s e _ h := asWritten_record s e h
  putMethod := keeping_putMethod asWritten_record fun m =>
    keeping_serve (asWritten_body scriptName ws w) fun s h => h.atDesk (w.serve (.method m))
  innerClass {inner} hi s hs h := by
    have B := asWritten_body scriptName ws w
    have L := B.laws
    have asks (q : Request) : Keeps (.keeping (AsWritten scriptName ws)) (ask w q) :=
      keeping_serve B fun s h => h.atDesk (w.serve q)
    have ending : Keeps (.keeping (AsWritten scriptName ws)) (endClass w) := by
      refine .get_bind fun _ => keeping_bind (asks _) fun _ => keeping_bind (keeping_note B rfl) fun _ => ?_
      refine keeping_bind (fun s h => ?_) fun _ => .get_bind fun _ => asks _
      exact ⟨⟨h.within.current, h.within.ahead⟩, h.notes⟩
    -- the reader stands at the name, and what stands after it decides about the base
    refine (consume_within h.next).bind fun name s1 ⟨h1, hn, place⟩ => ?_
    rw [moves_next] at hn place
    refine (nameAfter_within w h1 "extends" "Object").bind fun base s2 ⟨h2, hb⟩ => ?_
    rw [place] at hb
    have opens : OpensAt ws name base := ⟨s.moves, h.within.value.symm.trans hs, hn.symm, hb⟩
    refine (asWritten_startClass false opens h2).bind fun _ _ h => keeping_goes ?_ h
    exact .skip L _ <| keeping_bind B.steps.goDeeper fun _ => keeping_bind hi fun _ => ending

end Read

end GdScribe
