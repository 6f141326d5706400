import GdScribe.Proofs.Blocks.Layout
import GdScribe.Proofs.Blocks.Outline
import GdScribe.Proofs.Reader.Values
import GdScribe.Proofs.Table

/-!
# Targets that keep the blocks of a script

What a reader needs to know of a target to follow the blocks of a script in the text that is written.

* `Stage`: how far a script is read: the open blocks and classes, and the statements so far.

The requests come in the order in which a reader sends them. A scope is opened right after the line
before a block, and the body of a function is collected on a page of its own.
-/

namespace GdScribe

open Read (Serves callTree)

/-! ## Types that say nothing about blocks -/

/-- A character of ASCII that means nothing to an outline. -/
def TypeChar (c : Char) : Prop := c.toNat < 128 ∧ c ∉ outlineMarks

instance : DecidablePred TypeChar := fun _ => inferInstanceAs (Decidable (_ ∧ _))

/-- A text that says nothing about blocks. -/
abbrev TypeText : String → Prop := Over TypeChar

theorem typeChar_caseClosed : CaseClosed TypeChar := .of_ascii (fun _ h => h.1) (by decide)

theorem Scan.IsIdentifier.typeText {n : String} (h : IsIdentifier n) : TypeText n := by
  intro c hc
  have hp := h.letters c hc
  refine ⟨small_of_isNamePart hp, fun hm => ?_⟩
  have marks : ∀ c ∈ outlineMarks, isNamePart c = false := by decide
  rw [marks c hm] at hp
  cases hp

theorem FreeName.typeText {n : String} (h : FreeName n) : TypeText n := h.identifier.typeText

theorem Over.inline {s : String} (h : TypeText s) : Inline s.toList := .of_clear fun c hc => (h c hc).2

/-- A type that says nothing about blocks, if it is known. -/
def TameTy (t : Ty) : Prop := ∀ type, t = some type → TypeText type

theorem TameTy.orElse {t u : Ty} (ht : TameTy t) (hu : TameTy u) : TameTy (t.orElse u) := by
  unfold Ty.orElse
  split
  · exact ht
  · exact hu

/-- A table of types that say nothing about blocks. -/
def Table.Tame (t : Table Ty) : Prop := ∀ n type, t.find? n = some (some type) → TypeText type

theorem Table.Tame.put {t : Table Ty} (h : t.Tame) (n : String) {type : String} (ht : TypeText type) :
    (t.put n (some type)).Tame := by
  intro m u hu
  rw [find?_put] at hu
  split at hu
  · cases hu
    exact ht
  · exact h m u hu

theorem TameTy.of_table {t : Table Ty} (h : t.Tame) (n : String) : TameTy (t.ty n) := fun type ht =>
  h n type (Option.join_eq_some_iff.mp ht)

/-- A class whose members, constants and enumerators have such types. -/
structure ClassInfo.Tame (c : ClassInfo) : Prop where
  members : c.members.Tame
  constants : c.constants.Tame
  enums : c.enums.Tame

theorem ClassInfo.Tame.new (base : Option String) : ({ base := base } : ClassInfo).Tame := ⟨nofun, nofun, nofun⟩

namespace ClassTable

/-- Classes whose members, constants and enumerators have types that say nothing about blocks. -/
def Tame (t : ClassTable) : Prop := ∀ n, (t.info n).Tame

variable {t : ClassTable}

theorem Tame.parent (h : t.Tame) (n : String) : (t.parent n).Tame := by
  unfold ClassTable.parent
  cases hb : (t.info n).base.bind t.find? with
  | none => exact h "Object"
  | some c =>
    obtain ⟨b, -, hc⟩ := Option.bind_eq_some_iff.mp hb
    have hi : t.info b = c := by rw [info, hc]; rfl
    exact hi ▸ h b

theorem Tame.declare (h : t.Tame) {n : String} (hn : t.contains n = false)
    (base : String) : (t.declare n base).Tame := by
  intro m
  rw [info_declare t n base hn]
  split
  · exact .new _
  · exact h m

/-- Two class tables with the same classes, as far as their types have to do with blocks. -/
structure Kin (t t' : ClassTable) : Prop where
  contains : ∀ n, t'.contains n = t.contains n
  tame : t.Tame → t'.Tame

theorem Kin.trans {t' t'' : ClassTable} (h : Kin t t') (h' : Kin t' t'') : Kin t t'' :=
  ⟨fun n => (h'.contains n).trans (h.contains n), fun ht => h'.tame (h.tame ht)⟩

theorem kin_methods (t : ClassTable) {c : String} (hc : t.contains c = true) (f : Table Ty → Table Ty) :
    Kin t (t.update c fun info => { info with methods := f info.methods }) := by
  refine ⟨fun n => ?_, fun ht n => ?_⟩
  · rw [contains_update]
    by_cases h : c = n
    · simp [← h, hc]
    · simp [h]
  · rw [info_update]
    split
    · exact ⟨(ht n).members, (ht n).constants, (ht n).enums⟩
    · exact ht n

end ClassTable

/-! ## Stages -/

/-- How far a script is read. -/
structure Stage where
  /-- The number of blocks around the next line. -/
  level : Nat := 0
  /-- The classes that are open, innermost first. -/
  classes : List String := []
  /-- The statements that were written. -/
  found : List Row := []
  /-- Whether the body of a function is being collected. -/
  inBody : Bool := false

/-- Whether something is written for a line at its own place. -/
def Row.speaks (r : Row) : Bool :=
  match r.line with
  | .simple .pass => false
  | .simple _ => true
  | _ => false

/-- What a target is asked for a statement without a block. -/
def Simple.requests (t : ClassTable) : Simple → List Request
  | .pass => []
  | .stop => [.breakStatement]
  | .skip => [.continueStatement]
  | .result digits => [.returnHead (.literal digits), .endStatement]
  | .call name => [.expr (.seq (callTree t name []) .nothing), .endStatement]

/-- A request for the line before a block of statements. -/
def Request.IsHead : Request → Prop
  | .ifHead (.name _ n) | .elifHead (.name _ n) | .whileHead (.name _ n) => FreeName n
  | .elseHead => True
  | .forHead x type (.name _ n) => FreeName x ∧ TypeText type ∧ FreeName n
  | _ => False

section

variable {σ : Type} (w : Writer σ)

/-- A request is served without a change of the classes, and leaves pages with `P`. -/
def Answers (q : Request) (t : ClassTable) (p : σ) (P : σ → Prop) : Prop :=
  ∃ p', Serves (w.serve q) t p t p' ∧ P p'

/-- Requests are served in a row. -/
def AnswersAll : List Request → ClassTable → σ → (σ → Prop) → Prop
  | [], _, p, P => P p
  | q :: qs, t, p, P => Answers w q t p fun p' => AnswersAll qs t p' P

/-- The invariant of a target's pages, and what each request does to it. -/
structure Keeper where
  /-- The pages of a target at a stage. -/
  Holds : Stage → ClassTable → σ → Prop
  /-- The pages of a target at the end, for the statements of a script. -/
  Done : List Row → σ → Prop
  breaks : ∀ {st t p}, Holds st t p → ∀ k, Answers w (.put (Text.times "\n" k)) t p (Holds st t)
  close : ∀ {st t p}, Holds st t p → 0 < st.level →
    Answers w .closeScope t p (Holds { st with level := st.level - 1 } t)
  body : ∀ {st t p}, Holds st t p → st.inBody = false → st.classes.length = st.level + 1 →
    Answers w .openPage t p fun p' => Answers w .openScope t p'
      (Holds { st with level := st.level + 1, inBody := true } t)
  head : ∀ {st t p q}, Holds st t p → st.inBody = true → st.classes.length ≤ st.level → q.IsHead →
    Answers w q t p fun p' => Answers w .openScope t p' (Holds { st with level := st.level + 1, inBody := true } t)
  simple : ∀ {st t p s}, Holds st t p → st.inBody = true → 0 < st.classes.length →
    st.classes.length ≤ st.level → s ≠ .pass → (Line.simple s).Proper → AnswersAll w (s.requests t) t p
      (Holds { st with found := st.found ++ [⟨st.level, st.classes.length - 1, .simple s⟩] } t)
  /-- A method is written once its body is complete. -/
  method : ∀ {st t p c cs n returns}, Holds st t p → st.inBody = true → st.classes = c :: cs →
    st.level ≤ cs.length → t.contains c = true → FreeName n → (returns = none ∨ returns = some "int") →
    ∃ code p1, Serves w.takePage t p t p1 (· = code) ∧ ∀ override,
      ∃ t2 p2, Serves (w.serve (.method { name := n, returns, code, override }))
          (t.update c fun info => { info with methods := info.methods.put n returns }) p1 t2 p2 ∧
        ClassTable.Kin t t2 ∧ Holds { st with inBody := false } t2 p2
  main : ∀ {t p n}, Holds {} t p → Scan.IsIdentifier n → t.contains n = false →
    Answers w (.enterClass n) (t.declare n "Object") p fun p' =>
      Answers w (.defineClass n "Object" false true) (t.declare n "Object") p'
        (Holds { classes := [n] } (t.declare n "Object"))
  inner : ∀ {st t p n}, Holds st t p → st.inBody = false → st.classes.length = st.level + 1 →
    FreeName n → t.contains n = false → (∀ c ∈ st.classes, t.contains c = true) →
    Answers w (.enterClass n) (t.declare n "Object") p fun p' =>
      Answers w (.defineClass n "Object" false false) (t.declare n "Object") p'
        (Holds { st with level := st.level + 1, classes := n :: st.classes } (t.declare n "Object"))
  leave : ∀ {st t p c d cs}, Holds st t p → st.inBody = false → st.classes = c :: d :: cs →
    st.level ≤ cs.length → (∀ c ∈ st.classes, t.contains c = true) →
    ∃ t' p', Serves (w.serve (.endClass c)) t p t' p' ∧ ClassTable.Kin t t' ∧
      Answers w (.enterClass d) t' p' (Holds { st with classes := d :: cs } t')
  finish : ∀ {t p n rows}, Holds { classes := [n], found := rows } t p → t.contains n = true →
    ∃ t' p', Serves (w.serve .endScript) t p t' p' ∧ Done rows p'

end

end GdScribe
