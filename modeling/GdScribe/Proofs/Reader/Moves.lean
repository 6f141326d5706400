import GdScribe.Script.Run

/-!
# What the moves of a reader do

One equation for each basic move: the state and the result that it leaves. Longer actions are
worked out from these equations.

* `Request.ofMember`, `Request.inBlock`, `Request.enters`: kinds of requests: for members of a class, of
  expressions and statements, and the one that tells in which class the reader is.
-/

namespace GdScribe

/-- The requests for members of a class. -/
def Request.ofMember : Request → Bool
  | .enumeration _ _ _ | .marker _ _ _ _ | .property _ _ | .accessor _ _ | .endProperty _ _ | .method _
  | .signal _ _ => true
  | _ => false

/-- The requests of expressions and statements: not for members, classes or the end of a script. -/
def Request.inBlock : Request → Bool
  | .enterClass _ | .defineClass _ _ _ _ | .endClass _ | .endScript => false
  | q => !q.ofMember

/-- Whether a request tells the target which class it is in. -/
def Request.enters : Request → Bool
  | .enterClass _ => true
  | _ => false

namespace Read

open EStateM (Result)

variable {σ α β : Type}

/-- The values that a reader looks for in the token in view. -/
def testedWords : List String :=
  [".", ",", ":", "=", "(", ")", "[", "]", "\x7b", "\x7d", "$", "%", "@", "_", "->", "true", "false",
   "func", "is", "not", "in", "if", "elif", "else", "as", "get", "set", "when", "pass", "var",
   "const", "while", "for", "match", "return", "await", "break", "continue", "onready", "static",
   "class", "extends", "enum", "signal", "tool", "class_name", "LINE_END"]

variable {ε : Type} {x : EStateM ε σ α} {f : α → EStateM ε σ β} {s : Reader σ} {w : Writer σ}

/-- The state in which an action ends, with a result or with a fault. -/
def endState : Result ε σ α → σ
  | .ok _ s => s
  | .error _ s => s

theorem bind_apply (x : EStateM ε σ α) (f : α → EStateM ε σ β) (s : σ) : (x >>= f) s = match x s with
      | .ok a s' => f a s'
      | .error e s' => .error e s' := by
  show EStateM.bind x f s = _
  unfold EStateM.bind
  cases x s <;> rfl

theorem bind_ok {s s' : σ} {a : α} (h : x s = .ok a s') : (x >>= f) s = f a s' := by
  rw [bind_apply, h]

theorem bind_eq_ok {s s'' : σ} {b : β}
    (h : (x >>= f) s = .ok b s'') : ∃ a s', x s = .ok a s' ∧ f a s' = .ok b s'' := by
  rw [bind_apply] at h
  cases hx : x s with
  | ok a s' => rw [hx] at h; exact ⟨a, s', rfl, h⟩
  | error e s' => rw [hx] at h; cases h

/-- Whether an action ended well, in a state that passes a test. -/
def endsIn (test : σ → Bool) : Result ε σ α → Bool
  | .ok _ s => test s
  | .error _ _ => false

theorem exists_of_endsIn {test : σ → Bool} {x : Result ε σ α} (h : endsIn test x = true) :
    ∃ a s, x = .ok a s ∧ test s = true := by
  cases x with
  | ok a s => exact ⟨a, s, rfl, h⟩
  | error e s => cases h

theorem get_bind_apply (f : Reader σ → ReadM σ β) (s : Reader σ) : ((get : ReadM σ (Reader σ)) >>= f) s = f s s := rfl

theorem atDesk_eq_ok {act : DeskM σ α} {s' : Reader σ} {a : α} (h : atDesk act s = .ok a s') :
    ∃ d, act s.desk = .ok a d ∧ s' = { s with desk := d } := by
  unfold atDesk at h
  cases hd : act s.desk with
  | ok b d =>
    rw [hd] at h
    cases h
    exact ⟨d, rfl, rfl⟩
  | error e d =>
    rw [hd] at h
    cases h

theorem endState_atDesk (act : DeskM σ α) (s : Reader σ) :
    endState (atDesk act s) = { s with desk := endState (act s.desk) } := by
  unfold atDesk
  cases act s.desk <;> rfl

theorem ask_eq_ok {q : Request} {s' : Reader σ} {a : Unit} (h : ask w q s = .ok a s') :
    ∃ d, w.serve q s.desk = .ok a d ∧ s' = { s with asked := q :: s.asked, desk := d } :=
  atDesk_eq_ok h

theorem bareName_apply (name : String) (s : Reader σ) :
    ∃ a, bareName name s = .ok a { s with history := .used (useOf s name) :: s.history } := by
  unfold bareName
  rw [get_bind_apply]
  cases nameRole s name <;> exact ⟨_, rfl⟩

theorem advance_if {p : Prop} [Decidable p] {b : Bool} (h : b = true ↔ p) (s : Reader σ) :
    (if b then advance >>= fun _ => pure true else pure false : ReadM σ Bool) s =
      if p then .ok true s.next else .ok false s := by
  simp only [h]
  split <;> rfl

theorem expect_apply (x : String) (s : Reader σ) :
    expect x s = if s.current.value = x then .ok true s.next else .ok false s := advance_if beq_iff_eq s

theorem expectKind_apply (k : TokenKind) (s : Reader σ) :
    expectKind k s = if s.current.kind = k then .ok true s.next else .ok false s := advance_if beq_iff_eq s

section

variable (s : Reader σ)

theorem consume_apply : consume s = .ok s.current.value
      { s.next with desk := s.next.desk.note (.readStep ("consumed: " ++ s.current.value)) } := rfl

@[simp] theorem next_passed : s.next.passed = s.current :: s.passed := by
  unfold Reader.next
  cases s.ahead <;> rfl

@[simp] theorem next_strings : s.next.strings = s.strings := by
  unfold Reader.next
  cases s.ahead <;> rfl

@[simp] theorem next_asked : s.next.asked = s.asked := by
  unfold Reader.next
  cases s.ahead <;> rfl

theorem next_history : s.next.history = s.history := by
  unfold Reader.next
  cases s.ahead <;> rfl

theorem moves_next : s.next.moves = s.moves + 1 := by
  unfold Reader.next
  cases s.ahead <;> rfl

theorem consumeString_apply : consumeString s = .ok s.current.value { s.next with
        strings := s.current :: s.strings
        desk := s.next.desk.note (.readStep ("consumed: " ++ s.current.value)) } := by
  show consume { s with strings := s.current :: s.strings } = _
  unfold Reader.next
  cases s.ahead <;> rfl

end

/-! ## Where no member starts -/

/-- The words with which a member of a class can start. -/
def memberWords : List String :=
  ["pass", "static", "class", "enum", "func", "signal", "@", "const", "var"]

theorem markers_skips (h : s.current.value ≠ "@") : markers w s = .ok {} s := by
  show expectRounds _ _ _ _ s = _
  rw [expectRounds, bind_ok (by rw [expect_apply, if_neg h])]
  rfl

section

variable {w : Writer σ} {r : Rules σ} {s : Reader σ} (h : ∀ x ∈ memberWords, s.current.value ≠ x)

include h

theorem expect_no_member {α : Type} {x : String} (hx : x ∈ memberWords) (f : Bool → ReadM σ α) :
    (expect x >>= f) s = f false s :=
  bind_ok (by rw [expect_apply, if_neg (h x hx)])

theorem property_skips (static : Bool) : property w r static s = .ok () s := by
  unfold property
  rw [bind_ok (markers_skips (h _ (by decide)))]
  unfold markedProperty
  rw [expect_no_member h (by decide)]
  show (expect "var" >>= _) s = _
  rw [expect_no_member h (by decide)]
  rfl

theorem member_skips {inner : ReadM σ Unit} : member w r inner s = (do endLine w; return true : ReadM σ Bool) s := by
  have item : item w r false inner s = .ok () s := by
    unfold item
    rw [expect_no_member h (by decide), if_neg nofun]
    unfold plainItem
    rw [expect_no_member h (by decide), if_neg nofun, expect_no_member h (by decide), if_neg nofun,
      expect_no_member h (by decide), if_neg nofun, property_skips h]
  unfold member
  rw [expect_no_member h (by decide), if_neg nofun, expect_no_member h (by decide), bind_ok item]

end

end Read

variable {σ : Type}

/-- The classes that are open behind the end of the innermost one; the last one stays open. -/
abbrev Reader.enclosing (s : Reader σ) : List String :=
  if 1 < s.classes.length then s.classes.drop 1 else s.classes

/-- The reader before the first token of a script. -/
abbrev startOf (text : String) (desk : Desk σ) (first : Lexeme) (rest : List Lexeme) : Reader σ where
  current := first.token
  ahead := rest
  closing := (scan (text ++ "\n")).closing
  desk := desk.print first.notices

/-- A reader at the start of a text, in some classes. -/
def readerAt (classes : List String) (desk : Desk σ) (text : String) : Reader σ where
  current := ((scan text).lexemes.head?.map (·.token)).getD default
  ahead := (scan text).lexemes.tail
  closing := []
  classes
  desk

theorem run_cons (w : Writer σ) (name : String) {text : String} (desk : Desk σ) {first : Lexeme}
    {rest : List Lexeme} (h : (scan (text ++ "\n")).lexemes = first :: rest) :
    run w name text desk = .ofResult (Read.script w (Read.rules w (Read.depth (rest.length + 1))) name
      (startOf text desk first rest)) := by
  unfold run
  simp only [h, List.length_cons]

theorem run_nil (w : Writer σ) (name : String) {text : String} (desk : Desk σ)
    (h : (scan (text ++ "\n")).lexemes = []) : (run w name text desk).fault = some .noToken := by
  unfold run
  simp only [h]

/-- A run that ends well has read a script with a token in it. -/
theorem run_ended {w : Writer σ} {name text : String} {desk : Desk σ} (h : (run w name text desk).fault = none) :
    ∃ first rest s, (scan (text ++ "\n")).lexemes = first :: rest ∧ run w name text desk = .ofResult (.ok () s) ∧
      Read.script w (Read.rules w (Read.depth (rest.length + 1))) name (startOf text desk first rest) = .ok () s := by
  cases hl : (scan (text ++ "\n")).lexemes with
  | nil =>
    rw [run_nil w name desk hl] at h
    cases h
  | cons first rest =>
    rw [run_cons w name desk hl] at h ⊢
    generalize hs : Read.script w _ name _ = result at h
    cases result with
    | error e s => cases h
    | ok a s => exact ⟨first, rest, s, rfl, rfl, hs⟩

end GdScribe
