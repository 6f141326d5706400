import GdScribe.Proofs.Blocks.Drafts
import GdScribe.Proofs.Classes.Returns

/-!
# Calls by a bare name and calls on signals

The type of a call and the name it is written under are looked up apart from each other: a class has
its own methods first for the type, but the global functions first for the name. A call on a signal is
written if it emits or connects it, and is passed over otherwise.

* `Dialect.Puts`: a dialect that writes what it puts.

Principal results: `own_method_called`, `signal_call_written` and `signal_keeps_name_iff`.
-/

namespace GdScribe

open Read Target

variable {σ τ : Type} {w : Writer σ} {s s0 s1 s' : Reader σ} {g m T : String} {t : Ty} {e e0 : Expr} {args : List Expr}

/-! ## Methods of the class -/

/-- **A method of the class, called by its name**, gives the type that it is known to return. The call is
written under the name of the method unless there is a global function of this name, and the target
has another name for that. -/
theorem own_method_called {r : Rules σ} (known : T ≠ "")
    (method : s.ownClass.methods.find? g = some (some T)) (notClass : s.desk.classes.contains g = false)
    (called : call w r g none s = .ok (t, e) s') :
    ∃ args rest caller s₁, callArguments w r s = .ok args s₁ ∧ r.follow (some T) s₁ = .ok (t, rest) s' ∧
      e = .seq (.call caller g args) rest ∧
      (CSharp.callName caller g = CSharp.pascal g ↔ s.desk.classes.globals.methods.contains g = true →
        CSharp.pascal ((CSharp.functionNames.lookup g).getD g) = CSharp.pascal g) ∧
      (CPlusPlus.callName caller g = g ↔ s.desk.classes.globals.methods.contains g = true →
        (CPlusPlus.functionNames.lookup g).getD g = g) := by
  rw [call, get_bind_apply] at called
  obtain ⟨args, s₁, hargs, called⟩ := bind_eq_ok called
  obtain ⟨⟨t', rest⟩, s₂, hfollow, called⟩ := bind_eq_ok called
  rw [callType_own known method notClass] at hfollow
  cases called
  refine ⟨args, rest, _, s₁, hargs, hfollow, by rw [notClass]; rfl, ?_⟩
  cases s.desk.classes.globals.methods.contains g <;>
    simp [CSharp.callName, CPlusPlus.callName, Ty.known]

/-- A reader after `abs(`, in a class that has a method of this name. -/
def callsAbs : Reader Unit where
  current := ⟨.punct ')', ")", 0, 0, 0⟩
  ahead := [⟨[], ⟨.lineEnd, "0", 0, 0, 0⟩⟩]
  closing := []
  classes := ["A"]
  desk := ⟨⟨[("A", { methods := ⟨[("abs", some "String")]⟩ }),
    (ClassTable.globalScope, { methods := ⟨[("abs", some "int")]⟩ })]⟩, #[], ()⟩

theorem callsAbs_reads : call Collect.writer (rules Collect.writer 1) "abs" none callsAbs =
    .ok (some "String", .seq (.call (some ClassTable.globalScope) "abs" []) .nothing) callsAbs.next := by
  rfl

theorem own_abs_has_type : callsAbs.ownClass.methods.find? "abs" = some (some "String") ∧ ∃ args rest caller s₁,
    callArguments Collect.writer (rules Collect.writer 1) callsAbs = .ok args s₁ ∧
      (rules Collect.writer 1).follow (some "String") s₁ = .ok (some "String", rest) callsAbs.next ∧
      Expr.seq (.call (some ClassTable.globalScope) "abs" []) .nothing = .seq (.call caller "abs" args) rest ∧
      CSharp.callName caller "abs" ≠ CSharp.pascal "abs" ∧ CPlusPlus.callName caller "abs" ≠ "abs" := by
  obtain ⟨args, rest, caller, s₁, arguments, follow, written, sharp, plus⟩ :=
    own_method_called (by decide) rfl rfl callsAbs_reads
  refine ⟨rfl, args, rest, caller, s₁, arguments, follow, written, fun h => ?_, fun h => ?_⟩
  · exact absurd (sharp.mp h rfl) (by decide +kernel)
  · exact absurd (plus.mp h rfl) (by decide +kernel)

/-- The call of the class's own `abs` is written as one of the global function. -/
theorem own_abs_written_as_global : ∃ t caller, call Collect.writer (rules Collect.writer 1) "abs" none callsAbs =
    .ok (t, .seq (.call caller "abs" []) .nothing) callsAbs.next ∧
      CSharp.callName caller "abs" = "Mathf.Abs" ∧ CPlusPlus.callName caller "abs" = "Math::abs" :=
  ⟨_, _, callsAbs_reads, by decide +kernel, by decide +kernel⟩

/-! ## Signals -/

namespace Dialect

/-- What is put is added to the page. -/
def Puts (d : Dialect τ) (c : ClassTable) : Prop :=
  ∀ text, NoBreak text → text ≠ "" → Prints c (d.put text) text

end Dialect

variable {c : ClassTable} {z : Settings}

theorem CSharp.dialect_puts : (dialect z).Puts c := fun _ h _ => put_prints h

/-- What is kept of a call on a signal. -/
def signalUse (m signal : String) (args : List Expr) : Expr :=
  if m = "emit" then .emitSignal signal args else if m = "connect" then .connectSignal signal args else .nothing

theorem reference_of_signal {r : Rules σ} {f : Bool} (signal : Ty.endsWith (some T) "signal" = true)
    (name : consume s = .ok m s1) (opened : s1.current.value = "(")
    (arguments : callArguments w r s1.next = .ok args s') :
    reference w r (some T) f s = .ok (none, signalUse m (Text.replaceAll T "signal" "") args) s' := by
  rw [reference, bind_ok name, get_bind_apply]
  rw [if_pos signal, bind_ok (by rw [expect_apply, if_pos opened]), bind_ok arguments]
  rfl

/-- **A call on a signal** is read, and is written with all its arguments if it emits, with the first one
if it connects, and not at all otherwise. -/
theorem signal_call_written {n : Nat} (operand : value w (rules w (n + 1)) s = .ok (some T, e₀) s₀)
    (signal : Ty.endsWith (some T) "signal" = true) (point : s₀.current.value = ".")
    (name : consume s₀.next = .ok m s₁) (opened : s₁.current.value = "(")
    (arguments : callArguments w (rules w n) s₁.next = .ok args s') :
    ∃ e, dereference w (rules w (n + 1)) s = .ok (none, e) s' ∧
      ∀ {τ : Type} (d : Dialect τ) (c : ClassTable) (texts : List String), d.Puts c →
        List.Forall₂ (fun e => Prints c (d.expr e)) args texts →
        let head := d.emitHead (Text.replaceAll T "signal" "")
        if m = "emit" then NoBreak head → head ≠ "" →
          Prints c (d.expr e) (head ++ (.join (texts.map (", " ++ ·)) ++ ")"))
        else if m = "connect" then ∀ x xs, args = x :: xs →
          d.expr e = d.connect (Text.replaceAll T "signal" "") (d.expr x)
        else Prints c (d.expr e) "" := by
  have plain : Ty.endsWith (some T) "singleton" = false := by
    rw [Bool.eq_false_iff]
    intro single
    obtain ⟨a, ha⟩ := List.isSuffixOf_iff_suffix.mp signal
    obtain ⟨b, hb⟩ := List.isSuffixOf_iff_suffix.mp single
    have := congrArg List.getLast? (ha.trans hb.symm)
    simp at this
  have read := reference_of_signal (f := false) signal name opened arguments
  refine ⟨signalUse m (Text.replaceAll T "signal" "") args, ?_, fun d c texts puts ht => ?_⟩
  · rw [dereference, bind_ok operand]
    dsimp only
    rw [plain, bind_ok (by rw [expect_apply, if_pos point]), if_pos rfl, signal]
    exact bind_ok read
  · dsimp only [signalUse]
    split
    · intro head hne
      rw [Dialect.expr]
      exact (puts _ head hne).bind ((moreArguments_prints (puts _ (by decide) (by decide)) ht).bind
        (puts _ (by decide) (by decide)))
    · split
      · rintro x xs rfl
        rw [Dialect.expr]
      · rw [Dialect.expr]
        exact .nothing

/-- A reader before `hit.m(1)`, in a class with the signal `hit`. -/
def callsHit (m : String) : Reader Unit where
  current := ⟨.text, "hit", 0, 0, 0⟩
  ahead := [(.punct '.', "."), (.text, m), (.punct '(', "("), (.int, "1"), (.punct ')', ")"), (.lineEnd, "0")].map
    fun x => ⟨[], ⟨x.1, x.2, 0, 0, 0⟩⟩
  closing := []
  classes := ["A"]
  desk := ⟨⟨[("A", { members := ⟨[("hit", some "hitsignal")]⟩ })]⟩, #[], ()⟩

theorem hit_emitted : ∃ e s', dereference Collect.writer (rules Collect.writer 2) (callsHit "emit") = .ok (none, e) s' ∧
    Prints {} ((CSharp.dialect {}).expr e) "EmitSignal(\"Hit\", 1)" := by
  obtain ⟨e, read, written⟩ := signal_call_written (w := Collect.writer) (n := 1) (s := callsHit "emit")
    (T := "hitsignal") (m := "emit") rfl (by decide) rfl rfl rfl rfl
  exact ⟨e, _, read, written (CSharp.dialect {}) {} ["1"] CSharp.dialect_puts
    (.cons (by rw [Dialect.expr]; exact .write "1") .nil) (by decide +kernel) (by decide +kernel)⟩

/-- A signal that is disconnected leaves nothing. -/
theorem hit_disconnected : ∃ s', dereference Collect.writer (rules Collect.writer 2) (callsHit "disconnect") =
    .ok (none, .nothing) s' :=
  ⟨_, rfl⟩

theorem signalType_readBack_iff (n : String) :
    Text.replaceAll (signalType n) "signal" "" = n ↔ ¬ "signal".toList <:+: n.toList := by
  have word : "signal".toList = 's' :: "ignal".toList := rfl
  have once : 's' ∉ "ignal".toList := by decide
  rw [← String.toList_inj, Text.toList_replaceAll _ _ (by decide), signalType, String.toList_append, word]
  rw [String.toList_empty, Text.swap_append_self once, List.append_nil, Text.swap_eq_self_iff (List.cons_ne_nil _ _)]
  exact ⟨fun h part => absurd (h part) (by decide), fun h part => absurd part h⟩

/-- **A signal keeps its name** where it is emitted or connected exactly if the word `signal` is no part of
the name: the name is what is left of the type without this word. -/
theorem signal_keeps_name_iff {r : Rules σ} {f : Bool} {x : String} (name : consume s = .ok m s1)
    (used : m = "emit" ∨ m = "connect") (opened : s1.current.value = "(")
    (arguments : callArguments w r s1.next = .ok args s') :
    reference w r (some (signalType x)) f s = .ok (none, signalUse m x args) s' ↔
      ¬ "signal".toList <:+: x.toList := by
  have signal : Ty.endsWith (some (signalType x)) "signal" = true :=
    List.isSuffixOf_iff_suffix.mpr ⟨x.toList, by rw [signalType, String.toList_append]⟩
  rw [reference_of_signal signal name opened arguments, ← signalType_readBack_iff]
  rcases used with rfl | rfl <;> simp [signalUse]

theorem hit_connected : ∃ s', reference Collect.writer (rules Collect.writer 1) (some (signalType "hit")) false
    (callsHit "connect").next.next = .ok (none, .connectSignal "hit" [.literal "1"]) s' :=
  ⟨_, (signal_keeps_name_iff (x := "hit") rfl (.inr rfl) rfl rfl).mpr (by decide)⟩

/-- A signal `my_signal` is emitted as `my_`. -/
theorem my_signal_cut : ∃ s', dereference Collect.writer (rules Collect.writer 2) { callsHit "emit" with
    current := ⟨.text, "my_signal", 0, 0, 0⟩
    desk := ⟨⟨[("A", { members := ⟨[("my_signal", some (signalType "my_signal"))]⟩ })]⟩, #[], ()⟩ } =
    .ok (none, .emitSignal "my_" [.literal "1"]) s' :=
  ⟨_, rfl⟩

end GdScribe
