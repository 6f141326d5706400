import GdScribe.Proofs.Blocks.Drafts

/-!
# The heads of loops in C++

A loop over a call of `range` is written as a loop that counts. The arguments are found in the text that
is written for the call.

* `Counts`: what a counter visits while a test holds.

Principal results: `loop_head_written` and `counting_loop_visits`.
-/

namespace GdScribe

open Target List
open Read (Serves)

/-- The arguments of a call, as they are written. -/
theorem splitArguments_written {x : String} {xs : List String} (h : ∀ y ∈ x :: xs, Whole y) :
    splitArguments (String.intercalate ", " (x :: xs)) = x :: xs.map (" " ++ ·) := by
  have commas : String.intercalate ", " (x :: xs) = String.intercalate "," (x :: xs.map (" " ++ ·)) := by
    rw [intercalate_cons, intercalate_cons, map_map]
    congr 3
  rw [commas]
  refine splitArguments_intercalate fun y hy => ?_
  rcases mem_cons.mp hy with rfl | hy
  · exact h _ mem_cons_self
  · obtain ⟨z, hz, rfl⟩ := mem_map.mp hy
    have := h z (mem_cons_of_mem x hz)
    unfold Whole at this ⊢
    simpa [closesFrom] using this

namespace CPlusPlus

variable {z : Settings} {t : ClassTable} {x type : String} {e : Expr} {text : String}

/-! ## Heads -/

/-- The head of a loop that counts. -/
def counting (type name start stop step : String) : String :=
  "for(" ++ type ++ " " ++ name ++ "=" ++ start ++ "; " ++ name ++ "<" ++ stop ++ "; " ++ name ++ "+=" ++ step ++ ")"

/-- The head of a loop over a range, from the texts of its arguments. After a comma, a blank stays before the end. -/
def rangeHead (type name : String) : List String → Option String
  | [stop] => some (counting type name "0" (Text.strip stop) "1")
  | [start, stop] => some (counting type name (Text.strip start) (" " ++ stop) "1")
  | [start, stop, step] => some (counting type name (Text.strip start) (" " ++ stop) (Text.strip step))
  | _ => none

theorem range_arguments (inner : String) :
    Text.dropEnd (Text.replaceFirst ("range(" ++ inner ++ ")") "range(" "") 1 = inner := by
  have all : Text.replaceFirst ("range(" ++ inner ++ ")") "range(" "" = inner ++ ")" := by
    simp [Text.replaceFirst, Text.replaceUpTo, Text.splitUpTo, Text.cut, Text.cutFrom, Text.cutFrom_eq]
  rw [all, Text.dropEnd, String.length_append, String.toList_append]
  exact (congrArg String.ofList take_left).trans String.ofList_toList

theorem strip_blank (s : String) : Text.strip (" " ++ s) = Text.strip s := by
  have blank : CharClass.isBlank ' ' = true := rfl
  simp [Text.strip, blank]

theorem countingHead_written {a head : String} {rest : List String} (h : rangeHead type x (a :: rest) = some head) :
    countingHead type x (a :: rest.map (" " ++ ·)) = head := by
  refine Option.some.inj (Eq.trans ?_ h)
  match rest with
  | [] => rfl
  | [_] => rfl
  | [b, step] =>
    show some (counting type x (Text.strip a) (" " ++ b) (Text.strip (" " ++ step))) = _
    rw [strip_blank]
    rfl
  | _ :: _ :: _ :: _ => cases h

/-- A call is written with its arguments in parentheses. -/
theorem call_prints (caller : Ty) (name : String) {args : List Expr} {texts : List String}
    (head : NoBreak (callName caller name ++ "(")) (ha : Forall₂ (fun e => Prints t ((dialect z).expr e)) args texts) :
    Prints t ((dialect z).expr (.call caller name args))
      (callName caller name ++ "(" ++ (String.intercalate ", " texts ++ ")")) := by
  have some : callName caller name ++ "(" ≠ "" := by simp
  rw [Dialect.expr]
  exact (put_prints head some).bind <|
    (arguments_prints (put_prints (by decide) (by decide)) ha).bind (put_prints (by decide) (by decide))

theorem range_head_written {args : List Expr} {texts : List String} {head : String} (caller : Ty)
    (ha : Forall₂ (fun e => Prints t ((dialect z).expr e)) args texts) (whole : ∀ a ∈ texts, Whole a)
    (hh : rangeHead (typeName z (some type)) x texts = some head) :
    LoopHead z t x type (.call caller "range" args) head := by
  have name : callName caller "range" = "range" := by
    unfold callName
    split
    · decide +kernel
    · rfl
  have call : Prints t ((dialect z).expr (.call caller "range" args))
      ("range(" ++ (String.intercalate ", " texts ++ ")")) := by
    have written := call_prints caller "range" (by rw [name]; decide) ha
    rwa [name] at written
  have written := forHead_writes x type call
  rw [if_pos (by simp [Text.startsWith]), ← String.append_assoc, range_arguments] at written
  cases texts with
  | nil => cases hh
  | cons a rest =>
    rw [splitArguments_written whole, countingHead_written hh] at written
    exact written

/-- **The head of a loop.** What a loop goes through is written as it is, unless its text starts with `range`. For
a call of `range` with up to three arguments, a loop that counts is written with their texts, if the texts are
whole. -/
theorem loop_head_written (z : Settings) (t : ClassTable) (x type : String) :
    (∀ e text, Prints t ((dialect z).expr e) text → Text.startsWith text "range" = false →
      LoopHead z t x type e ("for(" ++ typeName z (some type) ++ " " ++ x ++ " : " ++ text ++ ")")) ∧
    ∀ caller args texts head, List.Forall₂ (fun e => Prints t ((dialect z).expr e)) args texts →
      (∀ a ∈ texts, Whole a) → rangeHead (typeName z (some type)) x texts = some head →
      LoopHead z t x type (.call caller "range" args) head := by
  refine ⟨fun e text he plain => ?_, fun caller args texts head ha whole hh => range_head_written caller ha whole hh⟩
  have written := forHead_writes x type he
  rwa [plain, if_neg Bool.false_ne_true] at written

theorem three_counted :
    LoopHead {} {} "x" "Variant" (.call none "items" []) "for(Variant x : items())" ∧
    LoopHead {} {} "i" "Variant"
      (.call none "range" [.call none "f" [.literal "1", .literal "2"], .literal "9", .literal "3"])
      "for(Variant i=f(1, 2); i< 9; i+=3)" := by
  have literal (n : String) : Prints {} ((dialect {}).expr (.literal n)) n := by
    rw [Dialect.expr]
    exact .write n
  have pair : Prints {} ((dialect {}).expr (.call none "f" [.literal "1", .literal "2"])) "f(1, 2)" :=
    call_prints none "f" (by decide) (.cons (literal "1") (.cons (literal "2") .nil))
  constructor
  · exact (loop_head_written {} {} "x" "Variant").1 _ "items()" (call_prints none "items" (by decide) .nil) (by decide)
  · exact (loop_head_written {} {} "i" "Variant").2 none _ ["f(1, 2)", "9", "3"] _
      (.cons pair (.cons (literal "9") (.cons (literal "3") .nil))) (by decide) (by decide +kernel)

/-- What is called `ranges` is taken for a call of `range`. -/
theorem ranges_counted : LoopHead {} {} "x" "Variant" (.name .variable "ranges") "for(Variant x=0; x<range; x+=1)" := by
  have name : Prints {} ((dialect {}).expr (.name .variable "ranges")) "ranges" := by
    rw [Dialect.expr]
    exact put_prints (by decide) (by decide)
  have written := forHead_writes "x" "Variant" name
  exact (congrArg (LoopHead {} {} "x" "Variant" _) (by decide +kernel)).mp written

/-! ## Counting -/

/-- A counter visits these numbers while a test holds, and then stops. The loop with the head
`for(int i=a; i<b; i+=s)` visits `l` if `Counts (· < b) s a l`. -/
inductive Counts (go : Int → Prop) (step : Int) : Int → List Int → Prop
  | stop {i : Int} (h : ¬ go i) : Counts go step i []
  | go {i : Int} {rest : List Int} (h : go i) (later : Counts go step (i + step) rest) : Counts go step i (i :: rest)

/-- The test of a range: below its end upwards, above it downwards. -/
abbrev InRange (stop step i : Int) : Prop := if 0 < step then i < stop else stop < i

/-- A counter that comes nearer to its end with each step gets there. -/
theorem Counts.of_measure {go : Int → Prop} {step : Int} (m : Int → Nat) (h : ∀ i, go i → m (i + step) < m i)
    (i : Int) : ∃ l, Counts go step i l := by
  by_cases hi : go i
  · have := h i hi
    obtain ⟨l, hl⟩ := of_measure m h (i + step)
    exact ⟨_, .go hi hl⟩
  · exact ⟨[], .stop hi⟩
  termination_by m i

/-- Downwards, the test of a loop that counts never comes to an end once it holds. -/
theorem Counts.not_below {stop step i : Int} {l : List Int} (hs : step < 0) (h : Counts (· < stop) step i l) :
    ¬ i < stop := by
  induction h with
  | stop h => exact h
  | go _ _ ih => omega

/-- A number in an expression, where a minus is an operator. -/
def number (n : Int) : Expr :=
  if n < 0 then .unary "-" (.literal (toString n.natAbs)) else .literal (toString n.natAbs)

def numberText (n : Int) : String := (if n < 0 then " - " else "") ++ toString n.natAbs

theorem number_prints (n : Int) : Prints t ((dialect z).expr (number n)) (numberText n) := by
  unfold number numberText
  split <;> rw [Dialect.expr]
  · rw [Dialect.expr]
    exact (put_prints (by decide) (by decide)).bind (.write _)
  · rw [String.empty_append]
    exact .write _

theorem numberText_whole (n : Int) : Whole (numberText n) := by
  have plain : ∀ cs : List Char, (∀ c ∈ cs, c.isDigit = true) → closesFrom 0 cs = true := by
    intro cs h
    induction cs with
    | nil => rfl
    | cons c cs ih =>
      obtain ⟨hc, hcs⟩ := forall_mem_cons.mp h
      have other {d : Char} (hd : d.isDigit = false) : c ≠ d := by
        rintro rfl
        rw [hd] at hc
        cases hc
      simp [closesFrom, ih hcs, other (d := '(') rfl, other (d := ')') rfl, other (d := ',') rfl]
  have digits : closesFrom 0 (toString n.natAbs).toList = true := plain _ fun c hc => by
    rw [Nat.toString_eq_ofList_toDigits, String.toList_ofList] at hc
    exact Nat.isDigit_of_mem_toDigits (by decide) (by decide) hc
  unfold Whole numberText
  split
  · simpa [closesFrom] using digits
  · simpa using digits

/-- **A loop over a range of three numbers.** It is written with a test that fits a step upwards only. The loop
visits what is in the range if and only if the step is positive or the range starts at its end; downwards it goes on
for ever from below the end, and visits nothing otherwise. -/
theorem counting_loop_visits (z : Settings) (t : ClassTable) (x type : String) (caller : Ty) (a b s : Int)
    (hs : s ≠ 0) :
    LoopHead z t x type (.call caller "range" [number a, number b, number s]) (counting (typeName z (some type)) x
      (Text.strip (numberText a)) (" " ++ numberText b) (Text.strip (numberText s))) ∧
    (∃ l, Counts (InRange b s) s a l ∧ (Counts (· < b) s a l ↔ 0 < s ∨ a = b)) ∧
    (s < 0 → if a < b then ∀ l, ¬ Counts (· < b) s a l else Counts (· < b) s a []) := by
  refine ⟨?_, ?_, fun neg => ?_⟩
  · exact range_head_written caller (.cons (number_prints a) (.cons (number_prints b) (.cons (number_prints s) .nil)))
      (by simp [numberText_whole]) rfl
  · by_cases pos : 0 < s
    · have up : InRange b s = (· < b) := by funext i; rw [InRange, if_pos pos]
      have nearer (i : Int) (hi : InRange b s i) : (b - (i + s)).toNat < (b - i).toNat := by
        rw [up] at hi
        omega
      obtain ⟨l, hl⟩ := Counts.of_measure (fun i => (b - i).toNat) nearer a
      exact ⟨l, hl, fun _ => .inl pos, fun _ => up ▸ hl⟩
    · have down : InRange b s = (b < ·) := by funext i; rw [InRange, if_neg pos]
      rw [down]
      have nearer (i : Int) (hi : b < i) : (i + s - b).toNat < (i - b).toNat := by omega
      obtain ⟨l, hl⟩ := Counts.of_measure (fun i => (i - b).toNat) nearer a
      refine ⟨l, hl, fun h => ?_, fun h => ?_⟩
      · have := h.not_below (by omega)
        cases hl <;> cases h <;> omega
      · cases hl
        · exact .stop (by omega)
        · omega
  · split
    · rename_i below
      exact fun l h => h.not_below neg below
    · rename_i above
      exact .stop above

theorem countdown_written :
    LoopHead {} {} "i" "Variant" (.call none "range" [number 3, number 0, number (-1)])
      (counting (typeName {} (some "Variant")) "i" (Text.strip (numberText 3)) (" " ++ numberText 0)
        (Text.strip (numberText (-1)))) ∧
    (∃ l, Counts (InRange 0 (-1)) (-1) 3 l ∧ ¬ Counts (· < 0) (-1) 3 l) ∧ Counts (· < 0) (-1) 3 [] := by
  obtain ⟨head, ⟨l, range, visits⟩, down⟩ := counting_loop_visits {} {} "i" "Variant" none 3 0 (-1) (by decide)
  have none := down (by decide)
  rw [if_neg (by decide)] at none
  exact ⟨head, ⟨l, range, fun h => absurd (visits.mp h) (by decide)⟩, none⟩

/-- A range downwards is not gone through. -/
theorem countdown_skipped :
    LoopHead {} {} "i" "Variant" (.call none "range" [number 3, number 0, number (-1)])
      "for(Variant i=3; i< 0; i+=- 1)" ∧
    Counts (InRange 0 (-1)) (-1) 3 [3, 2, 1] ∧ Counts (· < 0) (-1) 3 [] := by
  refine ⟨?_, .go (by decide) (.go (by decide) (.go (by decide) (.stop (by decide)))), .stop (by decide)⟩
  exact range_head_written none (.cons (number_prints 3) (.cons (number_prints 0) (.cons (number_prints (-1)) .nil)))
    (by simp [numberText_whole]) (by decide +kernel)

end CPlusPlus

end GdScribe
