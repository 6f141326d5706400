import GdScribe.Proofs.Blocks.Sentences
import GdScribe.Proofs.Text.Words

/-!
# The code of accessors

The code of a property's accessors is changed as a text: the property's name becomes that of the field
behind it, and a setter's parameter becomes `value`.

* `renameBare`: the code with a name replaced wherever it stands for itself.
* `Found`: when the walk over the code finds all these places.

Principal results: `setter_renames_iff` and `accessors_use_field`.
-/

namespace GdScribe.CSharp

open CharClass List Text Target Read

variable {name new : List Char}

/-- A word behind a separator, with `new` in the place of `name` unless it is a member of something. -/
def bareWord (name new : List Char) (x : Char × List Char) : Char × List Char :=
  (x.1, if x.1 = '.' then x.2 else renameWord name new x.2)

def renameBare (name new s : List Char) : List Char :=
  joined (renameWord name new (segments s).1) ((segments s).2.map (bareWord name new))

/-- A name is found where it stands for itself and nowhere else. An occurrence needs a separator after it
and takes it along, so another one right behind that has to be a member, as has one at the end. -/
def Found (name : List Char) : List (Char × List Char) → Prop
  | x :: y :: rest =>
    if x.2 = name then x.1 ≠ '.' ∧ (y.2 = name → y.1 = '.') ∧ Found name rest else Found name (y :: rest)
  | rest => ∀ x ∈ rest, x.2 = name → x.1 = '.'

section Walk

variable (done : List Char) {c after : Char} {rest t : List Char}

theorem replaceNameFrom_found (hc : isWord c = false) (ha : isWord after = false) :
    replaceNameFrom name new 0 done (c :: (name ++ after :: t)) =
      replaceNameFrom name new 0 (after :: (new.reverse ++ c :: done)) t := by
  have skip (done v : List Char) : replaceNameFrom name new (v.length + 1) done (v ++ after :: t) =
      replaceNameFrom name new 0 done t := by
    induction v with
    | nil => rfl
    | cons _ _ ih => exact ih
  rw [replaceNameFrom, drop_left]
  simp only [hc, ha, isPrefixOf_iff_prefix.mpr (prefix_append name _)]
  exact skip _ name

theorem replaceNameFrom_other (h : isWord c = false → ∀ after t, rest = name ++ after :: t → isWord after = true) :
    replaceNameFrom name new 0 done (c :: rest) = replaceNameFrom name new 0 (c :: done) rest := by
  rw [replaceNameFrom]
  split
  · rename_i after t hd
    rw [if_neg]
    intro found
    simp only [Bool.and_eq_true, Bool.not_eq_true', isPrefixOf_iff_prefix] at found
    obtain ⟨⟨hc, u, rfl⟩, ha⟩ := found
    rw [drop_left] at hd
    simp [h hc after t (by rw [hd])] at ha
  · rfl

theorem replaceNameFrom_word {w : List Char} (hw : IsWord w) (s : List Char) :
    replaceNameFrom name new 0 done (w ++ s) = replaceNameFrom name new 0 (w.reverse ++ done) s := by
  induction w generalizing done with
  | nil => rfl
  | cons c w ih =>
    obtain ⟨hc, hw⟩ := forall_mem_cons.mp hw
    rw [cons_append, replaceNameFrom_other done (by simp [hc]), ih _ hw]
    simp

end Walk

theorem bareWord_eq_self {x : Char × List Char} (h : x.2 = name → x.1 = '.') : bareWord name new x = x := by
  grind [bareWord, renameWord]

/-- **The walk on words.** What follows a separator is found if it is the name up to the next one. -/
theorem replaceNameFrom_joined (word : IsWord name) (rest : List (Char × List Char)) :
    ∀ w done, Segmented w rest → Found name rest →
      replaceNameFrom name new 0 done (joined w rest) = done.reverse ++ joined w (rest.map (bareWord name new)) := by
  have kept {w done x rest} (h : Segmented w (x :: rest)) (hx : x.2 = name → rest = []) :
      replaceNameFrom name new 0 done (joined w (x :: rest)) =
        replaceNameFrom name new 0 (x.1 :: (w.reverse ++ done)) (joined x.2 rest) := by
    obtain ⟨hw, -, hrest⟩ := segmented_cons.mp h
    rw [joined_cons, replaceNameFrom_word done hw, replaceNameFrom_other]
    intro _ after t found
    by_contra ha
    have parts := congrArg segments found
    rw [segments_joined hrest, segments_cut word (by simpa using ha), Prod.mk.injEq] at parts
    cases parts.2.symm.trans (hx parts.1)
  have whole {w done} (hw : IsWord w) : replaceNameFrom name new 0 done (joined w []) = done.reverse ++ w := by
    rw [joined, replaceNameFrom_word done hw]
    simp [replaceNameFrom]
  fun_induction Found name rest with
  | case1 x y rest hx ih =>
    rintro w done h ⟨bare, other, found⟩
    obtain ⟨hw, hc, h⟩ := segmented_cons.mp h
    obtain ⟨-, ha, h⟩ := segmented_cons.mp h
    rw [joined_cons, joined_cons, hx, replaceNameFrom_word done hw, replaceNameFrom_found _ hc ha, ih _ _ h found]
    have changed : bareWord name new x = (x.1, new) := by simp [bareWord, renameWord, hx, bare]
    simp [joined_cons, bareWord_eq_self other, changed]
  | case2 x y rest hx ih =>
    intro w done h found
    rw [kept h fun he => absurd he hx, ih _ _ (segmented_cons.mp h).2.2 found]
    simp [joined_cons, bareWord_eq_self (absurd · hx)]
  | case3 rest hrest =>
    intro w done h found
    rcases rest with _ | ⟨x, _ | ⟨y, rest⟩⟩
    · rw [whole h.1]
      simp [joined]
    · rw [kept h fun _ => rfl, whole (segmented_cons.mp h).2.2.1]
      simp [joined, bareWord_eq_self (found x mem_cons_self)]
    · exact absurd rfl (hrest x y rest)

/-! ## Setters -/

section Serving

variable {t : ClassTable} {p : Pages State} (property value code : String) {text : String}

theorem accessorCode_held (held : (t.info p.own.className).members.contains (privateName property) = true) :
    Serves (accessorCode property code) t p t p (· = code) :=
  Serves.bindEq (r := true) (.look fun d hd hp => by rw [hd, hp]; exact held) (.pure rfl)

theorem accessorCode_hidden (hidden : (t.info p.own.className).members.contains (privateName property) = false)
    (word : isWordName (pascal property) = true) : Serves (accessorCode property code) t p t p
      (· = replaceName code (pascal property) (privateName (pascal property))) := by
  refine Serves.bindEq (r := false) (.look fun d hd hp => by rw [hd, hp]; exact hidden) ?_
  rw [if_pos word]
  exact .pure rfl

section

variable (h : ∀ page, Serves (accessorCode property code) t { p with page } t { p with page } (· = text))

include h

theorem getter_serves : Serves (getter property code) t p t { p with page := p.page ++ ("get" ++ text) } := by
  rw [← String.append_assoc]
  exact (put_prints (by decide) p).bind fun _ _ => (h _).bindEq (Prints.write _ _)

theorem setter_serves :
    Serves (setter property value code) t p t
      { p with page := p.page ++ ("set" ++ replaceAll text value "value") } := by
  rw [← String.append_assoc]
  exact (put_prints (by decide) p).bind fun _ _ => (h _).bindEq (Prints.write _ _)

end

/-- **The parameter of a setter** becomes `value` as a text, where the property has a field of its own: as a
word it does exactly if no other word of the code contains it. -/
theorem setter_renames_iff
    (held : (t.info p.own.className).members.contains (privateName property) = true)
    (nonempty : value ≠ "") (word : isWordName value = true) :
    ∃ text, Serves (setter property value code) t p t { p with page := p.page ++ ("set" ++ text) } (fun _ => True) ∧
      (text.toList = mapWords (renameWord value.toList "value".toList) code.toList ↔
        ∀ w ∈ wordsIn code.toList, value.toList <:+: w → w = value.toList ∨ "value" = value) := by
  refine ⟨_, setter_serves _ _ _ fun page => accessorCode_held (p := { p with page }) _ _ held, ?_⟩
  rw [toList_replaceAll _ _ nonempty, swap_eq_rename_iff (by simpa using nonempty) (all_eq_true.mp word)
    (by unfold IsWord; decide)]
  simp only [String.toList_inj]

/-- A class with a field for the property `x`. -/
def fieldTable : ClassTable := ⟨[("A", { members := ⟨[("_x", none)]⟩ })]⟩

def inA : Pages State := { own := { className := "A" } }

theorem setter_renames_whole_word : ∃ text, text.toList = "_X = value;".toList ∧
    Serves (setter "x" "v" "_X = v;") fieldTable inA fieldTable { inA with page := "set" ++ text } fun _ => True := by
  obtain ⟨text, serves, renames⟩ := setter_renames_iff (t := fieldTable) (p := inA) "x" "v" "_X = v;" rfl (by decide)
    (by decide +kernel)
  exact ⟨text, (renames.mpr (by decide +kernel)).trans (by decide +kernel), by simpa [inA] using serves⟩

/-- Letters of other words are changed with the parameter. -/
theorem setter_renames_letters :
    Serves (setter "x" "v" "level = v;") fieldTable inA fieldTable { inA with page := "setlevalueel = value;" }
      fun _ => True := by
  have written := setter_serves "x" "v" "level = v;" (t := fieldTable) (p := inA) fun _ => accessorCode_held _ _ rfl
  rwa [show replaceAll "level = v;" "v" "value" = "levalueel = value;" by decide +kernel] at written

/-! ## The field behind a property -/

theorem cutFrom_done (sep s : List Char) (limit skip : Nat) (piece : List Char) (done more : List (List Char)) :
    cutFrom sep limit skip piece (done ++ more) s = more.reverse ++ cutFrom sep limit skip piece done s := by
  fun_induction cutFrom sep limit skip piece done s with
  | case1 => simp [cutFrom]
  | case2 _ _ _ _ _ _ ih => simpa [cutFrom] using ih
  | case3 _ _ _ _ ih => simpa [cutFrom] using ih
  | case4 _ _ _ _ _ h ih => simpa [cutFrom, h] using ih
  | case5 _ _ _ _ _ h ih => simpa [cutFrom, h] using ih

theorem length_privateName (name : String) : (privateName name).length = name.length + 1 :=
  (String.length_append ..).trans (Nat.add_comm ..)

theorem split_privateName (name : String) : split (privateName name) "_" = "" :: split name "_" := by
  have parts := cutFrom_done ['_'] name.toList name.length 0 [] [] [[]]
  rw [nil_append] at parts
  rw [split, splitUpTo, length_privateName]
  simp [privateName, split, splitUpTo, cut, cutFrom, parts]

/-- The declared name of the field is the one that the code is given. -/
theorem pascal_privateName {property : String} (mixed : (split property "_").all isUpper = false)
    (visible : ∃ c ∈ property.toList, c ≠ '_') :
    pascal (privateName property) = privateName (pascal property) := by
  have chars : (privateName property).toList = '_' :: property.toList := by simp [privateName]
  have leading : leadingUnderscores (privateName property) = leadingUnderscores property + 1 := by
    have short : (property.toList.takeWhile (· == '_')).length ≠ property.length := by
      rw [← String.length_toList]
      intro all
      obtain ⟨c, hc, hne⟩ := visible
      rw [← ( takeWhile_prefix _).eq_of_length all] at hc
      exact hne (by simpa using mem_takeWhile_imp hc)
    simp [leadingUnderscores, chars, length_privateName, short]
  simp only [pascal, split_privateName, leading]
  simp [mixed, times, replicate_succ, privateName, capitalize, String.append_assoc]

/-- **Accessors use the field behind their property**, where the script has no such field: its declared name
stands in the place of the property's name wherever that stands for itself. -/
theorem accessors_use_field
    (hidden : (t.info p.own.className).members.contains (privateName property) = false)
    (letters : ∀ c ∈ property.toList, Scan.isNamePart c = true)
    (mixed : (split property "_").all isUpper = false) (visible : ∃ c ∈ property.toList, c ≠ '_')
    (inside : (segments code.toList).1 ≠ (pascal property).toList)
    (found : Found (pascal property).toList (segments code.toList).2) :
    ∃ text, text.toList = renameBare (pascal property).toList (pascal (privateName property)).toList code.toList ∧
      Serves (getter property code) t p t { p with page := p.page ++ ("get" ++ text) } (fun _ => True) ∧
      ∀ value, Serves (setter property value code) t p t
        { p with page := p.page ++ ("set" ++ replaceAll text value "value") } fun _ => True := by
  have word : IsWord (pascal property).toList := fun c hc =>
    Scan.isWord_of_isNamePart (pascal_over namePart_caseClosed letters c hc)
  have served (page) := accessorCode_hidden (p := { p with page }) property code hidden (all_eq_true.mpr word)
  refine ⟨_, ?_, getter_serves _ _ served, fun _ => setter_serves _ _ _ served⟩
  rw [pascal_privateName mixed visible, replaceName, String.toList_ofList, renameBare, renameWord, if_neg inside]
  conv_lhs => rw [← joined_segments code.toList]
  exact replaceNameFrom_joined word _ _ _ (segmented_segments _) found

theorem x_getter_uses_field : ∃ text, text.toList = "return _X * _X[o];".toList ∧
    Serves (getter "x" "return X * X[o];") {} inA {} { inA with page := "get" ++ text } fun _ => True := by
  have parts : (segments "return X * X[o];".toList).2 =
      [(' ', ['X']), (' ', []), ('*', []), (' ', ['X']), ('[', ['o']), (']', []), (';', [])] := by decide +kernel
  obtain ⟨text, renamed, serves, -⟩ := accessors_use_field (t := {}) (p := inA) "x" "return X * X[o];" rfl
    (by decide) (by decide +kernel) ⟨'x', by decide, by decide⟩ (by decide +kernel) (by
      rw [parts, show (pascal "x").toList = ['X'] by decide +kernel]
      simp [Found])
  exact ⟨text, renamed.trans (by decide +kernel), by simpa [inA] using serves⟩

/-- Of two occurrences with one character between them the second one is missed, and a member of something else
is changed. The field of a property with a name of upper case words is declared under another name. -/
theorem accessors_miss_field :
    Serves (getter "x" "return X[X] + o.X;") {} inA {} { inA with page := "getreturn _X[X] + o._X;" } (fun _ => True) ∧
      pascal (privateName "MAX_SPEED") ≠ privateName (pascal "MAX_SPEED") := by
  refine ⟨?_, by decide +kernel⟩
  have written := getter_serves "x" "return X[X] + o.X;" (t := {}) (p := inA) fun _ =>
    accessorCode_hidden _ _ rfl (by decide +kernel)
  rwa [show replaceName "return X[X] + o.X;" (pascal "x") (privateName (pascal "x")) = "return _X[X] + o._X;" by
    decide +kernel] at written

end Serving

end GdScribe.CSharp
