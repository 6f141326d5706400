import GdScribe.Proofs.Expression.Faithful

/-!
# Operands

What `and` and `or` join: values with comparisons, type tests and membership tests after them, in any
order. Nothing groups them; they stand as they are written, from left to right.

* `Operand.Value`, `Operand.Links`, `Operand.Arguments`: the parts of an operand.
* `Operand`: a value with the links after it.
* `words`, `text`: the words of a part, and the text that a reader makes of it.
* `Links.unread`: the links that are left when a reader stops. A type test is the last thing that it
  takes, and a membership test takes all that follows into its collection.
* `Links.IsPlain`, `Links.IsWhole`: only comparisons; nothing left unread.

Principal results: `Links.isWhole_join_iff` and `Links.join_splits_iff`.
-/

namespace GdScribe

open Phrase

namespace Operand

mutual
/-- A value in an operand. -/
inductive Value
  | number (digits : String)
  | name (n : String)
  /-- A call of a name with operands as arguments. -/
  | call (n : String) (args : Arguments)

/-- What stands after a value. -/
inductive Links
  | done
  /-- A comparison with a value, or `and` or `or` before it. -/
  | compare (op : String) (v : Value) (rest : Links)
  /-- A test of the type. -/
  | isType (type : String) (rest : Links)
  /-- A test whether what comes before is in a collection. -/
  | isIn (negated : Bool) (whole : Value) (rest : Links)

/-- The arguments of a call. -/
inductive Arguments
  | done
  | item (first : Value) (links : Links) (rest : Arguments)
end

end Operand

open Operand (Value Links Arguments)

/-- A value with what is compared or tested after it. -/
structure Operand where
  first : Value
  links : Links

namespace Operand

/-- The arguments of a call, one by one. -/
def Arguments.items : Arguments → List Operand
  | .done => []
  | .item v l rest => ⟨v, l⟩ :: rest.items

/-- Whether no argument follows. -/
def Arguments.isLast : Arguments → Bool
  | .done => true
  | .item _ _ _ => false

mutual
/-- The words of a value. -/
def Value.words : Value → List Word
  | .number digits => [(.int, digits)]
  | .name n => [textWord n]
  | .call n args => textWord n :: mark '(' :: args.words ++ [mark ')']

/-- The words of links. -/
def Links.words : Links → List Word
  | .done => []
  | .compare op v rest => (.comparison, op) :: (v.words ++ rest.words)
  | .isType type rest => textWord "is" :: textWord type :: rest.words
  | .isIn negated v rest =>
    (if negated then [(.unary, "not")] else []) ++ textWord "in" :: (v.words ++ rest.words)

/-- The words of arguments, with commas between them. -/
def Arguments.words : Arguments → List Word
  | .done => []
  | .item v l rest => v.words ++ l.words ++ (if rest.isLast then [] else [mark ',']) ++ rest.words
end

/-- How the names in operands are spelled. -/
structure Spelling extends Spelled where
  /-- A type that is tested. -/
  type : String → String

mutual
/-- The text that is made of a value. -/
def Value.text (sp : Spelling) : Value → String
  | .number digits => digits
  | .name n => sp.name n
  | .call n args => sp.head n ++ "(" ++ String.intercalate ", " (args.texts sp) ++ ")"

/-- The text that is made of links and of the text before them. -/
def Links.text (sp : Spelling) : Links → String → String
  | .done, before => before
  | .compare op v rest, before =>
    before ++ texts.operatorPrint op ++ rest.text sp (v.text sp)
  | .isType t _, before => before ++ " is " ++ sp.type t
  | .isIn negated v rest, before =>
    (if negated then "!" else "") ++ rest.text sp (v.text sp) ++ ".Contains(" ++ before ++ ")"

/-- The texts that are made of arguments. -/
def Arguments.texts (sp : Spelling) : Arguments → List String
  | .done => []
  | .item v l rest => l.text sp (v.text sp) :: rest.texts sp
end

namespace Links

/-- The links at which a reader stops. -/
def unread : Links → Links
  | .done => .done
  | .compare _ _ rest => rest.unread
  | .isType _ rest => rest
  | .isIn _ _ rest => rest.unread

/-- A reader leaves none of the links. -/
def IsWhole (l : Links) : Prop := l.unread = .done

/-- All links are comparisons. -/
def IsPlain : Links → Prop
  | .done => True
  | .compare _ _ rest => rest.IsPlain
  | .isType _ _ => False
  | .isIn _ _ _ => False

/-- No link tests a type. -/
def Untyped : Links → Prop
  | .done => True
  | .compare _ _ rest => rest.Untyped
  | .isType _ _ => False
  | .isIn _ _ rest => rest.Untyped

/-- Links, then an operator and an operand. -/
def join (op : String) (e : Operand) : Links → Links
  | .done => .compare op e.first e.links
  | .compare op' v rest => .compare op' v (rest.join op e)
  | .isType type rest => .isType type (rest.join op e)
  | .isIn negated v rest => .isIn negated v (rest.join op e)

end Links

mutual
/-- Names are no words of the language, and numbers are neither words nor brackets. -/
def Value.Proper : Value → Prop
  | .number digits => digits ∉ brackets ∧ digits ∉ reserved
  | .name n => IsName n
  | .call n args => IsName n ∧ args.Proper

/-- Operators are comparisons, and types are types of values. -/
def Links.Proper : Links → Prop
  | .done => True
  | .compare op v rest => op ∈ Scan.comparisonOperators ∧ v.Proper ∧ rest.Proper
  | .isType type rest => IsName type ∧ type ≠ "void" ∧ rest.Proper
  | .isIn _ v rest => v.Proper ∧ rest.Proper

/-- Each argument is read to its end. -/
def Arguments.Proper : Arguments → Prop
  | .done => True
  | .item v l rest => v.Proper ∧ l.Proper ∧ l.IsWhole ∧ rest.Proper
end

namespace Links

/-! ## Where a reader stops -/

variable {op : String} {e : Operand}

theorem words_join (l : Links) :
    (l.join op e).words = l.words ++ (.comparison, op) :: (e.first.words ++ e.links.words) := by
  match l with
  | .done => rfl
  | .compare op' v rest | .isType type rest | .isIn negated v rest => simp [join, words, words_join rest]

theorem Proper.join {l : Links} (h : l.Proper) (hop : op ∈ Scan.comparisonOperators)
    (hv : e.first.Proper) (hl : e.links.Proper) : (l.join op e).Proper := by
  match l with
  | .done => exact ⟨hop, hv, hl⟩
  | .compare _ _ rest | .isType _ rest => exact ⟨h.1, h.2.1, join h.2.2 hop hv hl⟩
  | .isIn _ _ rest => exact ⟨h.1, join h.2 hop hv hl⟩

theorem words_eq_nil {l : Links} (h : l.words = []) : l = .done := by
  match l with
  | .done => rfl
  | .isIn negated _ _ => cases negated <;> simp [words] at h

theorem join_ne_done (l : Links) : l.join op e ≠ .done := by
  cases l <;> nofun

theorem IsPlain.untyped {l : Links} (h : l.IsPlain) : l.Untyped := by
  match l with
  | .done => trivial
  | .compare _ _ rest => exact untyped (l := rest) h

/-- **Where a reader stops.** Past links without a type test it goes on to the operand that is joined;
otherwise this operand is left, and the operator with it. -/
theorem isWhole_join_iff (l : Links) : (l.join op e).IsWhole ↔ l.Untyped ∧ e.links.IsWhole := by
  match l with
  | .done => exact ⟨fun h => ⟨trivial, h⟩, fun h => h.2⟩
  | .compare _ _ rest => exact isWhole_join_iff rest
  | .isType _ rest => exact ⟨fun h => absurd h (join_ne_done rest), fun h => h.1.elim⟩
  | .isIn _ _ rest => exact isWhole_join_iff rest

theorem Untyped.isWhole {l : Links} (h : l.Untyped) : l.IsWhole := by
  match l with
  | .done => rfl
  | .compare _ _ rest | .isIn _ _ rest => exact isWhole (l := rest) h

/-! ## Texts of joined operands -/

section

variable (sp : Spelling)

/-- The text of links up to the place where a joined operand would stand. -/
def stem : Links → String → String
  | .done, before => before
  | .compare op v rest, before => before ++ texts.operatorPrint op ++ rest.stem (v.text sp)
  | .isType t _, before => before ++ " is " ++ sp.type t
  | .isIn negated v rest, _ => (if negated then "!" else "") ++ rest.stem (v.text sp)

/-- The text of links after that place: the items that are looked for, the outermost last. -/
def closing : Links → String → String
  | .done, _ => ""
  | .compare _ v rest, _ => rest.closing (v.text sp)
  | .isType _ _, _ => ""
  | .isIn _ v rest, before => rest.closing (v.text sp) ++ ".Contains(" ++ before ++ ")"

theorem text_eq (l : Links) (before : String) : l.text sp before = l.stem sp before ++ l.closing sp before := by
  match l with
  | .done => simp [text, stem, closing]
  | .compare _ v rest => simp [text, stem, closing, text_eq rest, String.append_assoc]
  | .isType _ _ => simp [text, stem, closing]
  | .isIn _ v rest => simp [text, stem, closing, text_eq rest, String.append_assoc]

theorem text_join {l : Links} (h : l.Untyped) (before : String) :
    (l.join op e).text sp before = l.stem sp before ++ texts.operatorPrint op ++
      e.links.text sp (e.first.text sp) ++ l.closing sp before := by
  match l with
  | .done => simp [join, text, stem, closing]
  | .compare _ v rest | .isIn _ v rest =>
    simp [join, text, stem, closing, text_join (l := rest) h, String.append_assoc]

theorem closing_of_isPlain {l : Links} (h : l.IsPlain) (before : String) : l.closing sp before = "" := by
  match l with
  | .done => rfl
  | .compare _ v rest => exact closing_of_isPlain (l := rest) h _

theorem closing_start {l : Links} (h : l.Untyped) (before : String) :
    l.IsPlain ∨ ∃ cs, (l.closing sp before).toList = '.' :: cs := by
  match l with
  | .done => exact .inl trivial
  | .compare _ v rest => exact closing_start (l := rest) h _
  | .isIn _ v rest =>
    rcases closing_start (l := rest) h (v.text sp) with plain | ⟨cs, hcs⟩
    · simp [closing, closing_of_isPlain sp plain]
    · simp [closing, hcs]

theorem operatorPrint_start {op : String} (h : op ∈ ["and", "or"]) :
    ∃ cs, (texts.operatorPrint op).toList = ' ' :: cs := by
  simp only [List.mem_cons, List.not_mem_nil, or_false] at h
  rcases h with rfl | rfl
  · exact ⟨['&', '&', ' '], rfl⟩
  · exact ⟨['|', '|', ' '], rfl⟩

/-- **Side by side.** The text of joined operands is that of the first, the operator and that of the
second if and only if no link of the first is a membership test. -/
theorem join_splits_iff {l : Links} (h : l.Untyped) (hop : op ∈ ["and", "or"]) (before : String) :
    (l.join op e).text sp before = l.text sp before ++ texts.operatorPrint op ++
      e.links.text sp (e.first.text sp) ↔ l.IsPlain := by
  rw [text_join sp h, text_eq sp l]
  constructor
  · intro same
    rcases closing_start sp h before with plain | ⟨cs, hcs⟩
    · exact plain
    · obtain ⟨os, hos⟩ := operatorPrint_start hop
      have lists := congrArg String.toList same
      simp [hcs, hos] at lists
  · intro plain
    rw [closing_of_isPlain sp plain, String.append_empty, String.append_empty]

end

end Links

/-- The words of an operand. -/
def words (e : Operand) : List Word := e.first.words ++ e.links.words

/-- The text that is made of an operand. -/
def text (sp : Spelling) (e : Operand) : String := e.links.text sp (e.first.text sp)

/-- An operand with proper parts. -/
def Proper (e : Operand) : Prop := e.first.Proper ∧ e.links.Proper

/-- An operand, an operator and another operand. -/
def join (e : Operand) (op : String) (e' : Operand) : Operand := ⟨e.first, e.links.join op e'⟩

theorem words_join (e : Operand) (op : String) (e' : Operand) :
    (e.join op e').words = e.words ++ (.comparison, op) :: e'.words := by
  simp [join, words, Links.words_join]

theorem Proper.join {e e' : Operand} {op : String} (h : e.Proper) (h' : e'.Proper)
    (hop : op ∈ Scan.comparisonOperators) : (e.join op e').Proper :=
  ⟨h.1, Links.Proper.join h.2 hop h'.1 h'.2⟩

end Operand

end GdScribe
