import GdScribe.Proofs.Blocks.CSharp
import GdScribe.Proofs.Names.Accessors

/-!
# Names of members

Variables, constants and functions are declared under the spelling `pascal` of their name. It joins the words
of a name, so two names may get one spelling.

* `joinedWords`: the words of a name, capitalised and joined.
* `Screams`: names that are left alone, underscores and all.

Principal result: `declared_alike_iff`.
-/

namespace GdScribe.CSharp

open List Text Target

def joinedWords (name : String) : String := String.join ((split name "_").map capitalize)

/-- A name of several words in upper case. -/
def Screams (name : String) : Prop := '_' ∈ name.toList ∧ (split name "_").all isUpper = true

instance : DecidablePred Screams := fun _ => inferInstanceAs (Decidable (_ ∧ _))

variable {n : String}

theorem not_mem_cutFrom {x : Char} {s piece : List Char} {d : List (List Char)} {limit : Nat} (hl : s.length ≤ limit)
    (hp : x ∉ piece) (hd : ∀ q ∈ d, x ∉ q) : ∀ q ∈ cutFrom [x] limit 0 piece d s, x ∉ q := by
  induction s generalizing limit piece d with
  | nil =>
    rw [cutFrom]
    simpa [or_imp, forall_and] using ⟨hd, hp⟩
  | cons c s ih =>
    obtain ⟨limit, rfl⟩ : ∃ k, limit = k + 1 := Nat.exists_eq_add_one.mpr (Nat.zero_lt_of_lt hl)
    have hl : s.length ≤ limit := Nat.le_of_succ_le_succ hl
    rw [cutFrom]
    split
    · exact ih hl not_mem_nil (forall_mem_cons.mpr ⟨by simpa using hp, hd⟩)
    · exact ih (Nat.le_succ_of_le hl) (by simp_all) hd

/-- No underscore is left between the words. -/
theorem not_mem_joinedWords (h : ∀ c ∈ n.toList, Scan.isNamePart c = true) : '_' ∉ (joinedWords n).toList := by
  have closed : CaseClosed fun c => Scan.isNamePart c = true ∧ c ≠ '_' :=
    .of_ascii (fun _ h => Scan.small_of_isNamePart h.1) (by decide)
  have kept : Over (fun c => Scan.isNamePart c = true ∧ c ≠ '_') (joinedWords n) := by
    refine Over.join fun w hw => ?_
    obtain ⟨piece, hpiece, rfl⟩ := mem_map.mp hw
    refine closed.capitalize fun c hc => ⟨h c (mem_split hpiece hc), ?_⟩
    rintro rfl
    obtain ⟨q, hq, rfl⟩ := mem_map.mp hpiece
    rw [String.toList_ofList] at hc
    exact not_mem_cutFrom (x := '_') (d := []) (String.length_toList ▸ le_rfl) not_mem_nil (by simp) q hq hc
  exact fun hm => (kept _ hm).2 rfl

/-- Any other name is spelled with its words joined. -/
theorem pascal_of_not_screams (h : ∀ c ∈ n.toList, Scan.isNamePart c = true) (mixed : ¬ Screams n) :
    pascal n = times "_" (leadingUnderscores n) ++ joinedWords n := by
  unfold pascal
  dsimp only
  split
  · rename_i upper
    have single : '_' ∉ n.toList := fun hm => mixed ⟨hm, upper⟩
    have parts : split n "_" = [n] := split_of_not_mem (x := '_') (by decide) single
    rw [leadingUnderscores_of_not_mem single, joinedWords, parts, map_singleton]
    rw [parts, all_cons, all_nil, Bool.and_true, isUpper, Bool.and_eq_true_iff, List.all_eq_true] at upper
    have same : capitalize n = n := by
      unfold capitalize
      cases hn : n.toList with
      | nil => rfl
      | cons c cs =>
        have hc : c ∈ n.toList := hn ▸ mem_cons_self
        have alone := ascii_forall (q := fun c => (!(CharClass.isLower c || CharClass.isTitle c)) = true →
          upperForm c = String.singleton c) (by decide) c (Scan.small_of_isNamePart (h c hc))
        dsimp only
        rw [alone (upper.2 c hc)]
        apply String.toList_injective
        simp [hn]
    simp [same, times]
  · rfl

/-- A name that is left alone is the spelling of no other one. -/
theorem pascal_ne_of_screams {m : String} (hn : ∀ c ∈ n.toList, Scan.isNamePart c = true) (hm : Screams m) (k : Nat) :
    m ≠ times "_" k ++ joinedWords n := by
  rintro rfl
  cases k with
  | zero => exact not_mem_joinedWords hn (by simpa [times] using hm.1)
  | succ k =>
    have upper := hm.2
    rw [show times "_" (k + 1) ++ joinedWords n = privateName (times "_" k ++ joinedWords n) by
      simp [times, privateName, replicate_succ, String.append_assoc], split_privateName] at upper
    cases upper

theorem replicate_append_inj {k l : Nat} {x : Char} {u v : List Char} (hu : x ∉ u) (hv : x ∉ v) :
    replicate k x ++ u = replicate l x ++ v ↔ k = l ∧ u = v := by
  refine ⟨fun h => ?_, fun h => by rw [h.1, h.2]⟩
  induction k generalizing l with
  | zero =>
    cases l with
    | zero => exact ⟨rfl, h⟩
    | succ l => exact absurd (show x ∈ replicate 0 x ++ u by rw [h]; exact mem_cons_self) hu
  | succ k ih =>
    cases l with
    | zero => exact absurd (show x ∈ replicate 0 x ++ v by rw [← h]; exact mem_cons_self) hv
    | succ l => exact (ih (List.cons.inj h).2).imp_left (congrArg (· + 1))

/-- **When two names get one spelling.** -/
theorem pascal_eq_iff {a b : String} (ha : ∀ c ∈ a.toList, Scan.isNamePart c = true)
    (hb : ∀ c ∈ b.toList, Scan.isNamePart c = true) :
    pascal a = pascal b ↔ a = b ∨ ¬ Screams a ∧ ¬ Screams b ∧ leadingUnderscores a = leadingUnderscores b ∧
      joinedWords a = joinedWords b := by
  have alone {n : String} (h : Screams n) : pascal n = n := if_pos h.2
  by_cases sa : Screams a <;> by_cases sb : Screams b
  · simp [alone sa, alone sb, sa]
  · rw [alone sa, pascal_of_not_screams hb sb]
    refine iff_of_false (pascal_ne_of_screams hb sa _) ?_
    rintro (rfl | h)
    · exact sb sa
    · exact h.1 sa
  · rw [alone sb, pascal_of_not_screams ha sa]
    refine iff_of_false (pascal_ne_of_screams ha sb _).symm ?_
    rintro (rfl | h)
    · exact sa sb
    · exact h.2.1 sb
  · rw [pascal_of_not_screams ha sa, pascal_of_not_screams hb sb, ← String.toList_inj]
    have inj := replicate_append_inj (k := leadingUnderscores a) (l := leadingUnderscores b) (not_mem_joinedWords ha)
      (not_mem_joinedWords hb)
    have lead (k : Nat) : (times "_" k).toList = replicate k '_' := by
      induction k with
      | zero => rfl
      | succ k ih => simpa [times, replicate_succ] using ih
    rw [String.toList_append, String.toList_append, lead, lead, inj, String.toList_inj]
    refine ⟨fun h => .inr ⟨sa, sb, h⟩, ?_⟩
    rintro (rfl | h)
    · exact ⟨rfl, rfl⟩
    · exact h.2.2

/-- The name of a variable, constant or function that is declared. -/
def declaredName? : Request → Option String
  | .property p _ => some p.name
  | .method m => some m.name
  | _ => none

/-- Behind its type, a member is declared under a name. -/
def Declares (z : Settings) (q : Request) (name : String) : Prop :=
  ∃ (before : SharpM (String × String)) (after : String) (rest : String → SharpM Unit), serve z q = do
    let (type, code) ← before
    put (type ++ " " ++ name ++ after)
    rest code

theorem declares_pascal (z : Settings) {q : Request} (h : declaredName? q = some n) : Declares z q (pascal n) := by
  cases q with
  | property p _ =>
    cases h
    exact ⟨do
      let exposed ← exposure p.name false
      let type ← typeText z (some p.type)
      return (exposed ++ " " ++ (if p.constant then "const " else if p.static then "static " else "") ++ type, ""),
      "", fun _ => _, by
        simp only [serve, property, bind_assoc, pure_bind, String.append_empty]
        rfl⟩
  | method m =>
    cases h
    exact ⟨do
      let code ← methodCode m
      let exposed ← exposure m.name m.override
      let type ← typeText z m.returns
      return (exposed ++ " " ++ (if m.override then "override " else "") ++
        (if m.static then "static " else "") ++ type,
        code), "(", _, by
        simp only [serve, method, bind_assoc, pure_bind]
        rfl⟩
  | _ => cases h

/-- **When two members are declared under one name.** Each is declared under the spelling of its name, and these are
the same for two names exactly if both start with as many underscores and have the same words in the end. A name of
several words in upper case has its spelling for itself. -/
theorem declared_alike_iff (z : Settings) {q r : Request} {a b : String} (hq : declaredName? q = some a)
    (hr : declaredName? r = some b) (ha : ∀ c ∈ a.toList, Scan.isNamePart c = true)
    (hb : ∀ c ∈ b.toList, Scan.isNamePart c = true) :
    Declares z q (pascal a) ∧ Declares z r (pascal b) ∧ (pascal a = pascal b ↔ a = b ∨
      ¬ Screams a ∧ ¬ Screams b ∧ leadingUnderscores a = leadingUnderscores b ∧ joinedWords a = joinedWords b) :=
  ⟨declares_pascal z hq, declares_pascal z hr, pascal_eq_iff ha hb⟩

theorem max_size_apart : Declares {} (.method { name := "max_size" }) "MaxSize" ∧
    Declares {} (.method { name := "MAX_SIZE" }) "MAX_SIZE" ∧ pascal "max_size" ≠ pascal "MAX_SIZE" := by
  obtain ⟨first, second, alike⟩ := declared_alike_iff {} (q := .method { name := "max_size" })
    (r := .method { name := "MAX_SIZE" }) rfl rfl (by decide) (by decide)
  exact ⟨first, second, mt alike.mp (by decide +kernel)⟩

/-- Two members of one name, which no class may have. -/
theorem fooBar_declared_twice :
    Text.occursIn "public int FooBar = 1;\n\tpublic int FooBar = 2;"
      (run (writer {}) "S" "var foo_bar = 1\nvar fooBar = 2" ⟨{}, #[], start⟩).desk.pages.page = true := by
  decide +kernel

end GdScribe.CSharp
