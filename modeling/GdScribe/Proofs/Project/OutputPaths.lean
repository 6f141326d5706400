import GdScribe.Proofs.Project.Saving
import GdScribe.Proofs.Text.Replace

/-!
# The files of a script

A script is saved under its path with the folder replaced wherever it occurs and with every mark of a script
left out. Its files are named after its stem only if neither of the two occurs anywhere else.

* `Conversion.Plain`: paths for which this is so.

Principal result: `Conversion.outputs_of_plain`.
-/

namespace GdScribe

open List

namespace Conversion

/-- What is put behind the stem of a script. -/
def extensions : Language → List String
  | .cSharp => [".cs"]
  | .cPlusPlus => [".hpp", ".cpp"]

/-- Whether a path is taken to have no extension. -/
def Bare : Language → String → Prop
  | .cSharp, path => Text.endsWith path ".cs" = false
  | .cPlusPlus, path => (path.toList.drop (path.length - 4)).contains '.' = false

/-- The path of a script. -/
def script (folder stem : String) : String := Path.join folder (stem ++ ".gd")

/-- The path of a script in which neither its folder nor its mark is found anywhere else. -/
structure Plain (language : Language) (output folder stem : String) : Prop where
  dir : Path.dir (script folder stem) = folder
  open_ : Text.endsWith folder "/" = false
  relative : Text.startsWith (stem ++ ".gd") "/" = false
  once : folder = "" ∨ ¬ folder.toList <:+: ("/" ++ (stem ++ ".gd")).toList
  marked : ¬ ".gd".toList <:+: (output ++ "/" ++ stem).toList
  bare : Bare language (output ++ "/" ++ stem)

variable {language : Language} {output folder folder' stem stem' : String}

theorem join_below {file : String} (hf : folder ≠ "") (slash : Text.endsWith folder "/" = false)
    (hs : Text.startsWith file "/" = false) : Path.join folder file = folder ++ ("/" ++ file) := by
  simp [Path.join, hf, slash, hs, String.append_assoc]

theorem replaceAll_mark {s : String} (h : ¬ ".gd".toList <:+: s.toList) :
    Text.replaceAll (s ++ ".gd") ".gd" "" = s := by
  apply String.toList_injective
  rw [Text.toList_replaceAll _ _ (by decide), String.toList_append]
  rw [show ".gd".toList = ['.', 'g', 'd'] from rfl] at h ⊢
  generalize s.toList = s at h
  induction s with
  | nil => rfl
  | cons c s ih =>
    have absent : ¬ ['.', 'g', 'd'] <+: c :: (s ++ ['.', 'g', 'd']) := by
      intro hp
      match s, h with
      | [], _ => simp at hp
      | [d], _ => simp at hp
      | d :: e :: s, h => exact h (IsPrefix.isInfix (by simpa using hp))
    rw [cons_append, Text.swap, if_neg fun hp => absent ( isPrefixOf_iff_prefix.mp hp),
      ih fun hs => h (hs.trans (suffix_cons c s).isInfix)]

section

variable (ho : output ≠ "") (slash : Text.endsWith output "/" = false)

include ho slash

theorem savePath_of_plain (h : Plain language output folder stem) :
    savePath output (script folder stem) = output ++ "/" ++ stem := by
  have moved : (if folder.isEmpty then Path.join output (script folder stem)
      else Text.replaceAll (script folder stem) folder output) = output ++ "/" ++ stem ++ ".gd" := by
    rw [String.append_assoc, String.append_assoc]
    by_cases hd : folder = ""
    · have whole : script folder stem = stem ++ ".gd" := by simp [script, Path.join, hd]
      rw [if_pos (by simp [hd]), whole, join_below ho slash h.relative]
    · rw [if_neg (by simpa using hd), script, join_below hd h.open_ h.relative]
      apply String.toList_injective
      rw [Text.toList_replaceAll _ _ hd, String.toList_append, Text.swap_append (by simpa using hd),
        (Text.swap_eq_self_iff (by simpa using hd) _).mpr fun hs => absurd hs (h.once.resolve_left hd),
        ← String.toList_append]
  unfold savePath
  rw [h.dir]
  dsimp only
  rw [moved]
  exact replaceAll_mark h.marked

theorem outputs_savePath (h : Plain language output folder stem) :
    outputs language (savePath output (script folder stem)) =
      (extensions language).map (output ++ "/" ++ stem ++ ·) := by
  rw [savePath_of_plain ho slash h]
  have bare := h.bare
  cases language with
  | cSharp =>
    unfold outputs
    rw [if_neg (by simpa [Bare] using bare)]
    rfl
  | cPlusPlus =>
    have plain : Draft.plainPath (output ++ "/" ++ stem) = output ++ "/" ++ stem :=
      if_neg (by rw [show contains _ _ = false from bare]; decide)
    unfold outputs
    rw [plain]
    rfl

/-- **The files of a plain script** are named after its stem, and what comes of the script is saved there.
Two plain scripts have a file in common just if they have the same stem. -/
theorem outputs_of_plain (h : Plain language output folder stem) (h' : Plain language output folder' stem') :
    let files := outputs language (savePath output (script folder stem))
    files = (extensions language).map (output ++ "/" ++ stem ++ ·) ∧
      (∀ (o : Options) (n i : Nat) (j : Job) (T T' : FileTree) (text : String), o.noSave = false →
        j.tree.makeFolders (Path.dir (output ++ "/" ++ stem)) = .ok T → T.read (script folder stem) = .ok text →
        (made o language (script folder stem) text j.classes).fault = none →
        written T (files.zip (texts (made o language (script folder stem) text j.classes).code)) = .ok T' →
        ∃ j', convertScript o language output n i (script folder stem) j = .ok () j' ∧ j'.tree = T') ∧
      ((∃ f ∈ files, f ∈ outputs language (savePath output (script folder' stem'))) ↔ stem = stem') := by
  have saved := savePath_of_plain ho slash h
  refine ⟨outputs_savePath ho slash h, fun o n i j T T' text saves folders read fine writes => ?_, ?_⟩
  · rw [← saved] at folders
    have step : convertScript o language output n i (script folder stem) j = _ :=
      convertScript_apply saves n i folders read (token_isSome (by rw [fine]; nofun))
    have whole := whole_of_no_fault fine
    generalize made o language (script folder stem) text j.classes = m at step whole writes
    have drafted : (m.reported (savePath output (script folder stem)) T j).draft =
        some ⟨savePath output (script folder stem), m.code⟩ := rfl
    obtain ⟨j', saved, tree, -⟩ := saveDraft_whole drafted whole writes (convertedLine output n i (script folder stem))
    exact ⟨j', step.trans saved, tree⟩
  · have sizes : ∀ e ∈ extensions language, ∀ e' ∈ extensions language, e.toList.length = e'.toList.length := by
      cases language <;> decide
    rw [outputs_savePath ho slash h, outputs_savePath ho slash h']
    constructor
    · rintro ⟨f, hf, hf'⟩
      obtain ⟨e, he, rfl⟩ := mem_map.mp hf
      obtain ⟨e', he', same⟩ := mem_map.mp hf'
      have lists := congrArg String.toList same
      simp only [String.toList_append, append_assoc] at lists
      have tails := append_cancel_left (append_cancel_left lists)
      exact String.toList_injective (append_inj_left' tails (sizes _ he' _ he)).symm
    · rintro rfl
      have some : ∃ e, e ∈ extensions language := by cases language <;> exact ⟨_, mem_cons_self⟩
      obtain ⟨e, he⟩ := some
      exact ⟨_, mem_map_of_mem he, mem_map_of_mem he⟩

end

theorem outputs_of_plain_folders :
    outputs .cPlusPlus (savePath "out" "in/x.gd") = ["out/x.hpp", "out/x.cpp"] ∧
      ∃ f ∈ outputs .cPlusPlus (savePath "out" "in/x.gd"), f ∈ outputs .cPlusPlus (savePath "out" "in/sub/x.gd") := by
  have first : Plain .cPlusPlus "out" "in" "x" :=
    ⟨by decide +kernel, by decide, by decide, .inr (by decide), by decide, by unfold Bare; decide⟩
  have second : Plain .cPlusPlus "out" "in/sub" "x" :=
    ⟨by decide +kernel, by decide, by decide, .inr (by decide), by decide, by unfold Bare; decide⟩
  obtain ⟨files, -, shared⟩ := outputs_of_plain (by decide) (by decide) first second
  exact ⟨files, shared.mpr rfl⟩

/-- The path of a folder may be found in the stem of a script, and a stem in several folders. -/
theorem savePath_not_by_stem : savePath "out" "a/banana.gd" = "out/boutnoutnout" ∧
    savePath "out" "in/x.gd" = savePath "out" "in/sub/x.gd" := by decide +kernel

end Conversion

end GdScribe
