import GdScribe.Proofs.Classes.Sections

/-!
# The header of a script in C++

A header is made from a form with three marks, which are replaced one after the other. Where no name has a mark in it,
the declarations of the classes stand in their place, in the order in which the classes ended.

* `headerLines`: the lines of a header.
* `NoMarks`: names that have no mark of the form in them.

Principal results: `headerText_lines` and `run_lists_classes`.
-/

namespace GdScribe

open List

namespace Text

variable {old new : String}

/-- A character that `old` does not have parts a text in lines, each of which is replaced in for itself. -/
theorem replaceAll_intercalate (new : String) {z : Char} (hold : old ≠ "") (hz : z ∉ old.toList) (ls : List String) :
    replaceAll (String.intercalate (String.singleton z) ls) old new =
      String.intercalate (String.singleton z) (ls.map fun l => replaceAll l old new) := by
  have some : old.toList ≠ [] := by simpa using hold
  apply String.toList_injective
  induction ls with
  | nil =>
    rw [toList_replaceAll _ _ hold]
    rfl
  | cons l ls ih =>
    cases ls with
    | nil => simp [toList_replaceAll _ _ hold]
    | cons l' ls =>
      rw [toList_replaceAll _ _ hold] at ih ⊢
      simp only [String.toList_intercalate, map_cons, String.toList_singleton] at ih ⊢
      rw [intercalate_cons_cons, intercalate_cons_cons, append_assoc, singleton_append, swap_append_cons some hz, ih]
      simp [toList_replaceAll _ _ hold]

/-- Nothing is replaced after a character that `old` does not have, if `old` stands nowhere. -/
theorem replaceAll_line {a s : String} {x z : Char} (hx : x ∈ old.toList) (ha : x ∉ a.toList) (hz : z ∉ old.toList)
    (hs : ¬ old.toList <:+: s.toList) :
    replaceAll (a ++ String.singleton z ++ s) old new = a ++ String.singleton z ++ s := by
  have some : old.toList ≠ [] := ne_nil_of_mem hx
  apply String.toList_injective
  rw [toList_replaceAll _ _ (by rintro rfl; exact some rfl)]
  simp only [String.toList_append, String.toList_singleton, append_assoc, cons_append, nil_append]
  rw [swap_append_cons some hz, swap_eq_self hx ha, (swap_eq_self_iff some _).mpr fun h => absurd h hs]

end Text

namespace CPlusPlus

open Target

variable {z : Settings}

/-! ## The header -/

/-- A line that guards a header. -/
def guardLine (guard word : String) : String := word ++ " " ++ (guard ++ "_H")

/-- The lines of a header with the given parts. -/
def headerLines (guard includes declarations : String) : List String :=
  ["", guardLine guard "#ifndef", guardLine guard "#define", "", "#include <godot_cpp/godot.hpp>",
    "#include <godot_cpp/variant/array.hpp>", "#include <godot_cpp/variant/dictionary.hpp>", includes, "",
    "using namespace godot;", "", declarations, "", guardLine guard "#endif //", ""]

/-- The lines of a header that are the same for all scripts. -/
def fixedLines : List String :=
  ["", "#include <godot_cpp/godot.hpp>", "#include <godot_cpp/variant/array.hpp>",
    "#include <godot_cpp/variant/dictionary.hpp>", "using namespace godot;"]

theorem headerForm_lines :
    headerForm = String.intercalate "\n" (headerLines "__CLASS__" "__INCLUDES__" "__IMPLEMENTATION__") := by
  decide +kernel

variable {old new guard guard' includes includes' declarations declarations' : String}

/-- What is replaced in a header is replaced in its parts. -/
theorem replaceAll_headerLines {x : Char} (hx : x ∈ old.toList) (hz : '\n' ∉ old.toList)
    (fixed : ∀ l ∈ fixedLines, x ∉ l.toList)
    (guards : ∀ word ∈ ["#ifndef", "#define", "#endif //"],
      Text.replaceAll (guardLine guard word) old new = guardLine guard' word)
    (hi : Text.replaceAll includes old new = includes') (hd : Text.replaceAll declarations old new = declarations') :
    Text.replaceAll (String.intercalate "\n" (headerLines guard includes declarations)) old new =
      String.intercalate "\n" (headerLines guard' includes' declarations') := by
  have hold : old ≠ "" := by
    rintro rfl
    cases hx
  have same (l : String) (hl : l ∈ fixedLines) : Text.replaceAll l old new = l :=
    Text.replaceAll_of_not_mem new hx (fixed l hl)
  have lines := Text.replaceAll_intercalate new hold hz (headerLines guard includes declarations)
  refine lines.trans (congrArg (String.intercalate "\n") ?_)
  simp only [headerLines, map_cons, map_nil, guards "#ifndef" (by simp), guards "#define" (by simp),
    guards "#endif //" (by simp), hi, hd, same "" (by decide), same "#include <godot_cpp/godot.hpp>" (by decide),
    same "#include <godot_cpp/variant/array.hpp>" (by decide),
    same "#include <godot_cpp/variant/dictionary.hpp>" (by decide),
    same "using namespace godot;" (by decide)]

/-- Names that have no mark of the form of a header in them. -/
structure NoMarks (name : String) (used : List String) : Prop where
  includes : ¬ "__INCLUDES__".toList <:+: (Text.upper name ++ "_H").toList
  declarations : ¬ "__IMPLEMENTATION__".toList <:+: (Text.upper name ++ "_H").toList
  classes : ∀ u ∈ used, ¬ "__IMPLEMENTATION__".toList <:+: (includeLine u).toList

/-- The lines that make the classes known which a script needs. -/
def includeLines (used : List String) : String :=
  String.intercalate "\n" ((Text.distinctSorted used).map includeLine) ++ "\n"

theorem replaceAll_self (h : old ≠ "") : Text.replaceAll old old new = new := by
  apply String.toList_injective
  rw [Text.toList_replaceAll _ _ h, Text.swap_self (by simpa using h)]

/-- A guard stays as it is, if there is nothing to replace in it. -/
theorem replaceAll_guardLine (hu : '_' ∈ old.toList) (hz : ' ' ∉ old.toList)
    (hs : ¬ old.toList <:+: (guard ++ "_H").toList) :
    ∀ word ∈ ["#ifndef", "#define", "#endif //"],
      Text.replaceAll (guardLine guard word) old new = guardLine guard word := by
  intro word hw
  refine Text.replaceAll_line (z := ' ') hu ?_ hz hs
  revert word
  decide

theorem replaceAll_includeLines {used : List String}
    (h : ∀ u ∈ used, ¬ "__IMPLEMENTATION__".toList <:+: (includeLine u).toList) :
    Text.replaceAll (includeLines used) "__IMPLEMENTATION__" new = includeLines used := by
  have line (l : String) (hl : l ∈ (Text.distinctSorted used).map includeLine) :
      Text.replaceAll l "__IMPLEMENTATION__" new = l := by
    obtain ⟨u, hu, rfl⟩ := mem_map.mp hl
    unfold Text.distinctSorted at hu
    rw [mem_eraseDups, mem_mergeSort] at hu
    apply String.toList_injective
    rw [Text.toList_replaceAll _ _ (by decide)]
    exact (Text.swap_eq_self_iff (by decide) _).mpr fun found => absurd found (h u hu)
  have lines := Text.replaceAll_intercalate new (show "__IMPLEMENTATION__" ≠ "" by decide) (z := '\n') (by decide)
    ((Text.distinctSorted used).map includeLine)
  rw [map_congr_left line, map_id'] at lines
  apply String.toList_injective
  have last : (includeLines used).toList =
      (String.intercalate "\n" ((Text.distinctSorted used).map includeLine)).toList ++ '\n' :: [] :=
    String.toList_append
  rw [Text.toList_replaceAll _ _ (by decide), last, Text.swap_append_cons (by decide) (by decide),
    ← Text.toList_replaceAll _ _ (by decide)]
  exact congrArg (fun l : String => l.toList ++ ['\n']) lines

/-- **The parts of a header stand in their places**, where names have no mark of the form in them. -/
theorem headerText_lines (o : State) (noMarks : NoMarks o.scriptName o.used) :
    headerText o = tidy maxLineEnds (String.intercalate "\n"
      (headerLines (Text.upper o.scriptName) (includeLines o.used) o.declarations)) := by
  have named : Text.replaceAll headerForm "__CLASS__" (Text.upper o.scriptName) = String.intercalate "\n"
      (headerLines (Text.upper o.scriptName) "__INCLUDES__" "__IMPLEMENTATION__") := by
    rw [headerForm_lines]
    refine replaceAll_headerLines (x := 'C') (by decide) (by decide) (by decide) (fun word hw => ?_)
      (Text.replaceAll_of_not_mem (x := 'A') _ (by decide) (by decide))
      (Text.replaceAll_of_not_mem (x := 'C') _ (by decide) (by decide))
    have once := Text.replaceAll_once (a := word) (b := "_H") (y := 'C') (z := ' ')
      (show '_' ∈ "__CLASS__".toList by decide) (by revert word; decide) (by decide) (by decide) (by decide)
      (Text.upper o.scriptName)
    show Text.replaceAll (word ++ String.singleton ' ' ++ ("__CLASS__" ++ "_H")) _ _ =
      word ++ String.singleton ' ' ++ (Text.upper o.scriptName ++ "_H")
    rw [← String.append_assoc, once, String.append_assoc]
  have included : Text.replaceAll (String.intercalate "\n"
      (headerLines (Text.upper o.scriptName) "__INCLUDES__" "__IMPLEMENTATION__")) "__INCLUDES__"
      (includeLines o.used) =
        String.intercalate "\n" (headerLines (Text.upper o.scriptName) (includeLines o.used) "__IMPLEMENTATION__") :=
    replaceAll_headerLines (x := 'I') (by decide) (by decide) (by decide)
      (replaceAll_guardLine (by decide) (by decide) noMarks.includes) (replaceAll_self (by decide))
      (Text.replaceAll_of_not_mem (x := 'C') _ (by decide) (by decide))
  have declared : Text.replaceAll (String.intercalate "\n"
      (headerLines (Text.upper o.scriptName) (includeLines o.used) "__IMPLEMENTATION__")) "__IMPLEMENTATION__"
        o.declarations =
          String.intercalate "\n" (headerLines (Text.upper o.scriptName) (includeLines o.used) o.declarations) :=
    replaceAll_headerLines (x := 'I') (by decide) (by decide) (by decide)
      (replaceAll_guardLine (by decide) (by decide) noMarks.declarations) (replaceAll_includeLines noMarks.classes)
      (replaceAll_self (by decide))
  show tidy maxLineEnds (Text.replaceAll (Text.replaceAll (Text.replaceAll headerForm _ _) "__INCLUDES__"
    (includeLines o.used)) _ _) = _
  rw [named, included, declared]

/-- **The end of a script** makes the header from the declarations. -/
theorem endScript_header {d d' : Desk (Pages State)} {u : Unit} (h : endScript z d = .ok u d') :
    d'.pages.own.header = headerText d'.pages.own := by
  obtain ⟨_, d1, -, h⟩ := Read.bind_eq_ok h
  obtain ⟨_, d2, -, h⟩ := Read.bind_eq_ok h
  obtain ⟨_, _, -, h⟩ := Read.bind_eq_ok h
  obtain ⟨_, d3, -, h⟩ := Read.bind_eq_ok h
  cases h
  dsimp only
  unfold headerText
  rfl

/-- **The header lists the classes.** In a run that ends well, the header has the declarations of all classes, in the
order in which they ended, between lines that are told by the name of the script and the classes that it uses. With
`Listing`, each property is declared once, with its initial value unless it is static or waits. -/
theorem run_lists_classes {name text : String} {d : Desk (Pages State)} (hd : d.pages = start name)
    (ok : (run (writer z) name text d).fault = none)
    (noMarks : NoMarks name (run (writer z) name text d).desk.pages.own.used) :
    ∃ declarations, Listing z (run (writer z) name text d).asked declarations ∧
      (run (writer z) name text d).desk.pages.own.header.toList.filter isCode = (String.intercalate "\n" (headerLines
        (Text.upper name) (includeLines (run (writer z) name text d).desk.pages.own.used) declarations)).toList.filter
          isCode := by
  have named : (run (writer z) name text d).desk.pages.own.scriptName = name :=
    (scriptName_of_session (run_session ok)).trans (by rw [hd]; rfl)
  have header : (run (writer z) name text d).desk.pages.own.header =
      headerText (run (writer z) name text d).desk.pages.own := by
    obtain ⟨first, rest, s, -, hr, hs⟩ := run_ended ok
    rw [Read.script_eq] at hs
    obtain ⟨_, s1, -, hs⟩ := Read.bind_eq_ok hs
    obtain ⟨d', served, rfl⟩ := Read.ask_eq_ok hs
    rw [hr]
    exact endScript_header served
  refine ⟨_, (declares_of_session (run_session ok) hd).listing, ?_⟩
  rw [header, headerText_lines _ (by rw [named]; exact noMarks), named, toList_tidy]
  exact filter_tidyRest (.start 0)

end CPlusPlus

end GdScribe
