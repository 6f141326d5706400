import GdScribe.Proofs.Reader.View
import GdScribe.Proofs.Target.Spelling
import GdScribe.Target.Dialect

/-!
# Phrases

The derivations of a grammar of expressions on one line, with the words that each one stands for and
with its reference printing.

* `Phrase`: derivations, by the rank of what they derive: a value; values joined by arithmetic
  operators; these after an operator; comparisons; conditional choices; and what stands between
  brackets.
* `Phrase.print`: the reference printing, up to how names and the heads of calls are spelled.

Principal results: `Phrase.first_word` and `Phrase.first_kind`.
-/

namespace GdScribe

/-- What a phrase is. -/
inductive Rank where
  | value
  | sum
  | signed
  | comparison
  | choice
  | list
  | pairs
  deriving DecidableEq

/-- Whether a phrase stands between brackets and may be empty. -/
def Rank.isBracketed : Rank → Bool
  | .list | .pairs => true
  | _ => false

/-- The derivations of a grammar of expressions. -/
inductive Phrase : Rank → Type
  /-- A decimal or hexadecimal number. -/
  | number (hex : Bool) (text : String) : Phrase .value
  | truth (value : Bool) : Phrase .value
  | name (n : String) : Phrase .value
  /-- A call of a name with arguments. -/
  | call (n : String) (args : Phrase .list) : Phrase .value
  /-- A name with an index. -/
  | index (n : String) (key : Phrase .choice) : Phrase .value
  /-- A phrase in parentheses. -/
  | group (inner : Phrase .choice) : Phrase .value
  | array (items : Phrase .list) : Phrase .value
  | dictionary (entries : Phrase .pairs) : Phrase .value
  | single (v : Phrase .value) : Phrase .sum
  | operate (v : Phrase .value) (op : String) (rest : Phrase .sum) : Phrase .sum
  | unsigned (a : Phrase .sum) : Phrase .signed
  | signed (op : String) (a : Phrase .sum) : Phrase .signed
  | uncompared (a : Phrase .signed) : Phrase .comparison
  | compare (a : Phrase .signed) (op : String) (b : Phrase .comparison) : Phrase .comparison
  | unconditional (a : Phrase .comparison) : Phrase .choice
  /-- The first phrase if the second one holds, else the third. -/
  | conditional (whenTrue condition : Phrase .comparison) (whenFalse : Phrase .choice) : Phrase .choice
  | noItem : Phrase .list
  | item (e : Phrase .choice) (rest : Phrase .list) : Phrase .list
  | noPair : Phrase .pairs
  | pair (key value : Phrase .choice) (rest : Phrase .pairs) : Phrase .pairs

/-- A single character that stands for itself, as a word. -/
def mark (c : Char) : Word := (.punct c, String.singleton c)

/-- A word of letters. -/
def textWord (s : String) : Word := (.text, s)

/-- How names are spelled. -/
structure Spelled where
  /-- A name by itself. -/
  name : String → String
  /-- The head of a call. -/
  head : String → String

namespace Phrase

/-- Whether anything follows in a list or among pairs. -/
def isLast : {k : Rank} → Phrase k → Bool
  | _, .noItem | _, .noPair => true
  | _, _ => false

/-- The words of a phrase. -/
def words : {k : Rank} → Phrase k → List Word
  | _, .number hex text => [(if hex then .hex else .int, text)]
  | _, .truth value => [textWord (if value then "true" else "false")]
  | _, .name n => [textWord n]
  | _, .call n args => textWord n :: mark '(' :: args.words ++ [mark ')']
  | _, .index n key => textWord n :: mark '[' :: key.words ++ [mark ']']
  | _, .group e => mark '(' :: e.words ++ [mark ')']
  | _, .array items => mark '[' :: items.words ++ [mark ']']
  | _, .dictionary entries => mark '\x7b' :: entries.words ++ [mark '\x7d']
  | _, .single v => v.words
  | _, .operate v op rest => v.words ++ (.arithmetic, op) :: rest.words
  | _, .unsigned a => a.words
  | _, .signed op a => (.unary, op) :: a.words
  | _, .uncompared a => a.words
  | _, .compare a op b => a.words ++ (.comparison, op) :: b.words
  | _, .unconditional a => a.words
  | _, .conditional a c b => a.words ++ textWord "if" :: c.words ++ textWord "else" :: b.words
  | _, .noItem => []
  | _, .item e rest => e.words ++ (if rest.isLast then [] else [mark ',']) ++ rest.words
  | _, .noPair => []
  | _, .pair k v rest =>
    k.words ++ mark ':' :: v.words ++ (if rest.isLast then [] else [mark ',']) ++ rest.words

/-- The items of a list. -/
def items : Phrase .list → List (Phrase .choice)
  | .noItem => []
  | .item e rest => e :: rest.items

def pairs : Phrase .pairs → List (Phrase .choice × Phrase .choice)
  | .noPair => []
  | .pair k v rest => (k, v) :: rest.pairs

/-- The texts of a phrase: one, or one for each item or pair. -/
def texts (sp : Spelled) : {k : Rank} → Phrase k → List String
  | _, .number _ text => [text]
  | _, .truth value => [if value then "true" else "false"]
  | _, .name n => [sp.name n]
  | _, .call n args => [sp.head n ++ "(" ++ String.intercalate ", " (args.texts sp) ++ ")"]
  | _, .index n key => [sp.name n ++ "[" ++ String.join (key.texts sp) ++ "]"]
  | _, .group e => ["(" ++ String.join (e.texts sp) ++ ")"]
  | _, .array items => ["new Array\x7b" ++ String.join ((items.texts sp).map (· ++ ", ")) ++ "\x7d"]
  | _, .dictionary entries => ["new Dictionary\x7b" ++ String.join (entries.texts sp) ++ "\x7d"]
  | _, .single v => v.texts sp
  | _, .operate v op rest =>
    [String.join (v.texts sp) ++ operatorPrint op ++ String.join (rest.texts sp)]
  | _, .unsigned a => a.texts sp
  | _, .signed op a => [operatorPrint op ++ String.join (a.texts sp)]
  | _, .uncompared a => a.texts sp
  | _, .compare a op b => [String.join (a.texts sp) ++ operatorPrint op ++ String.join (b.texts sp)]
  | _, .unconditional a => a.texts sp
  | _, .conditional a c b =>
    ["( " ++ String.join (c.texts sp) ++ " ? " ++ String.join (a.texts sp) ++ " : " ++
      String.join (b.texts sp) ++ " )"]
  | _, .noItem => []
  | _, .item e rest => String.join (e.texts sp) :: rest.texts sp
  | _, .noPair => []
  | _, .pair k v rest =>
    ("\x7b" ++ String.join (k.texts sp) ++ ", " ++ String.join (v.texts sp) ++ "\x7d,") ::
      rest.texts sp
where
  /-- An operator: words are written as signs, and all but the negation stand between blanks. -/
  operatorPrint (op : String) : String :=
    if op = "and" then " && " else if op = "or" then " || "
    else if op = "not" ∨ op = "!" then "!" else " " ++ op ++ " "

/-- The reference printing of a phrase. -/
def print (sp : Spelled) {k : Rank} (p : Phrase k) : String := String.join (p.texts sp)

/-- The brackets that a reader looks for before and after values. -/
def brackets : List String := ["(", ")", "[", "]", "\x7b", "\x7d", "."]

/-- The words that mean something inside an expression. -/
def reserved : List String := ["true", "false", "func", "is", "not", "in", "if", "else", "as"]

/-- A name that is no word of the language. -/
structure IsName (n : String) : Prop where
  free : n ∉ reserved
  nonempty : n ≠ ""
  letters : ∀ c ∈ n.toList, Scan.isNamePart c = true

instance (n : String) : Decidable (IsName n) :=
  decidable_of_iff (n ∉ reserved ∧ n ≠ "" ∧ ∀ c ∈ n.toList, Scan.isNamePart c = true)
    ⟨fun h => ⟨h.1, h.2.1, h.2.2⟩, fun h => ⟨h.free, h.nonempty, h.letters⟩⟩

theorem IsName.ne {n x : String} (h : IsName n)
    (hx : x ∈ reserved ∨ ∃ c ∈ x.toList, Scan.isNamePart c = false) : n ≠ x := by
  rintro rfl
  rcases hx with hx | ⟨c, hc, hf⟩
  · exact h.free hx
  · rw [h.letters c hc] at hf
    cases hf

/-- An operator that is no bracket. -/
structure IsOperator (op : String) : Prop where
  free : op ∉ brackets
  oneLine : '\n' ∉ op.toList

instance (op : String) : Decidable (IsOperator op) :=
  decidable_of_iff (op ∉ brackets ∧ '\n' ∉ op.toList) ⟨fun h => ⟨h.1, h.2⟩, fun h => ⟨h.free, h.oneLine⟩⟩

/-- Names are no words of the language, and numbers and operators are no brackets. -/
def Proper : {k : Rank} → Phrase k → Prop
  | _, .number _ text => text ∉ brackets ∧ '\n' ∉ text.toList
  | _, .truth _ => True
  | _, .name n => IsName n
  | _, .call n args => IsName n ∧ args.Proper
  | _, .index n key => IsName n ∧ key.Proper
  | _, .group e => e.Proper
  | _, .array items => items.Proper
  | _, .dictionary entries => entries.Proper
  | _, .single v => v.Proper
  | _, .operate v op rest => v.Proper ∧ IsOperator op ∧ rest.Proper
  | _, .unsigned a => a.Proper
  | _, .signed op a => IsOperator op ∧ a.Proper
  | _, .uncompared a => a.Proper
  | _, .compare a op b => a.Proper ∧ IsOperator op ∧ b.Proper
  | _, .unconditional a => a.Proper
  | _, .conditional a c b => a.Proper ∧ c.Proper ∧ b.Proper
  | _, .noItem => True
  | _, .item e rest => e.Proper ∧ rest.Proper
  | _, .noPair => True
  | _, .pair k v rest => k.Proper ∧ v.Proper ∧ rest.Proper

/-- A word with which a phrase can start. -/
structure Starts (w : Word) : Prop where
  notClosing : w.2 ∉ [")", "]", "\x7d"]
  notLine : Read.Leads.isLine w.1 = false

theorem starts_of_free {k : TokenKind} {v : String} (hv : v ∉ brackets)
    (hk : Read.Leads.isLine k = false) : Starts (k, v) := by
  refine ⟨fun h => hv ?_, hk⟩
  simp only [List.mem_cons, List.not_mem_nil, or_false] at h ⊢
  rcases h with rfl | rfl | rfl <;> decide

theorem IsName.starts {n : String} (h : IsName n) : Starts (textWord n) := by
  refine ⟨fun hn => ?_, rfl⟩
  simp only [List.mem_cons, List.not_mem_nil, or_false] at hn
  rcases hn with hn | hn | hn
  · exact h.ne (by decide) hn
  · exact h.ne (by decide) hn
  · exact h.ne (by decide) hn

theorem first_word : ∀ {k : Rank} (p : Phrase k), k.isBracketed = false → p.Proper →
    ∃ w ws, p.words = w :: ws ∧ Starts w
  | _, .number hex text, _, h => ⟨_, _, rfl, starts_of_free h.1 (by cases hex <;> rfl)⟩
  | _, .truth value, _, _ => ⟨_, _, rfl, by cases value <;> exact ⟨by decide, rfl⟩⟩
  | _, .name n, _, h => ⟨_, _, rfl, h.starts⟩
  | _, .call n args, _, h => ⟨_, _, rfl, h.1.starts⟩
  | _, .index n key, _, h => ⟨_, _, rfl, h.1.starts⟩
  | _, .group e, _, _ | _, .array items, _, _
  | _, .dictionary entries, _, _ => ⟨_, _, rfl, by decide, rfl⟩
  | _, .single v, _, h => first_word v rfl h
  | _, .operate v op rest, _, h => by
    obtain ⟨w, ws, hw, hs⟩ := first_word v rfl h.1
    exact ⟨w, ws ++ (.arithmetic, op) :: rest.words, by rw [words, hw]; rfl, hs⟩
  | _, .unsigned a, _, h => first_word a rfl h
  | _, .signed op a, _, h => ⟨_, _, rfl, starts_of_free h.1.free rfl⟩
  | _, .uncompared a, _, h => first_word a rfl h
  | _, .compare a op b, _, h => by
    obtain ⟨w, ws, hw, hs⟩ := first_word a rfl h.1
    exact ⟨w, ws ++ (.comparison, op) :: b.words, by rw [words, hw]; rfl, hs⟩
  | _, .unconditional a, _, h => first_word a rfl h
  | _, .conditional a c b, _, h => by
    obtain ⟨w, ws, hw, hs⟩ := first_word a rfl h.1
    exact ⟨w, ws ++ textWord "if" :: c.words ++ textWord "else" :: b.words, by
      rw [words, hw]; simp, hs⟩

theorem first_kind (p : Phrase .sum) : ∃ k v ws, p.words = (k, v) :: ws ∧ k ≠ .unary := by
  have first (p : Phrase .value) : ∃ k v ws, p.words = (k, v) :: ws ∧ k ≠ .unary := by
    cases p with
    | number hex text => exact ⟨_, _, _, rfl, by cases hex <;> decide⟩
    | _ => exact ⟨_, _, _, rfl, by decide⟩
  cases p with
  | single v => exact first v
  | operate v op rest =>
    obtain ⟨k, x, ws, hw, hk⟩ := first v
    exact ⟨k, x, ws ++ (.arithmetic, op) :: rest.words, by rw [words, hw]; rfl, hk⟩

end Phrase

end GdScribe
