import GdScribe.Project.FileTree
import GdScribe.Proofs.Table

/-!
# Writing in a file tree

Writing a file changes that file and nothing else, and making folders changes no file. What is done with
other files does not depend on what is in a file.

Principal results: `FileTree.write_free`, `FileTree.files_makeFolders`, and `FileTree.Beside.write`,
`FileTree.Beside.makeFolders` and `FileTree.Beside.read`: trees that differ in one file stay so.
-/

namespace GdScribe

/-- The place to which parts lead from a place. -/
def Place.along (p : Place) (parts : List String) : Place := parts.foldl Place.step p

namespace FileTree

variable {T T' U : FileTree} {p x : Place} {path text k : String}

theorem locate_along (h : T.locate path = .ok x) : x = T.here.along (Path.parts path) := by
  have follow {parts : List String} {p : Place} (h : T.follow p parts = .ok x) : x = p.along parts := by
    induction parts generalizing p with
    | nil =>
      cases h
      rfl
    | cons part rest ih =>
      rw [follow] at h
      split at h
      · exact ih h
      · cases h
  unfold locate at h
  split at h
  · cases h
  · exact follow h

/-- **Writing a file** where there is no folder changes that file only. -/
theorem write_free (hl : T.locate path = .ok x) (free : T.isFolder x = false) (zero : x.back = 0) (text : String) :
    T.write path text = .ok { T with files := T.files.put x.path text } := by
  unfold write
  rw [hl]
  dsimp only [bind, Except.bind]
  rw [if_neg (by simp [free]), if_pos zero]
  rfl

/-- **Making folders** changes no file. -/
theorem files_makeFolders (h : T.makeFolders path = .ok T') : T'.files = T.files ∧ T'.here = T.here := by
  have along {T : FileTree} {parts : List String} {p : Place} (h : T.makeAlong p parts = .ok T') :
      T'.files = T.files ∧ T'.here = T.here := by
    induction parts generalizing T p with
    | nil =>
      cases h
      exact ⟨rfl, rfl⟩
    | cons part rest ih =>
      rw [makeAlong] at h
      split at h
      · exact ih h
      · split at h
        · cases h
        · exact ih (T := { T with folders := p.step part :: T.folders }) h
  unfold makeFolders at h
  split at h
  · cases h
  · exact along h

/-- Two trees, seen from one place, that differ in the contents of one file. -/
structure Beside (k : String) (o : Place) (T U : FileTree) : Prop where
  here : T.here = o ∧ U.here = o
  folders : U.folders = T.folders
  keys : U.files.keys = T.files.keys
  file : ∀ l, l ≠ k → U.files.find? l = T.files.find? l

/-- Two actions on such trees that both fail alike or both give such trees. -/
def Besides (k : String) (o : Place) {ε : Type} (x y : Except ε FileTree) : Prop :=
  (∃ e, x = .error e ∧ y = .error e) ∨ ∃ T U, x = .ok T ∧ y = .ok U ∧ Beside k o T U

namespace Beside

variable {o : Place} (h : Beside k o T U)

include h

theorem isFolder (p : Place) : U.isFolder p = T.isFolder p := by
  unfold FileTree.isFolder
  rw [h.folders, h.keys]

theorem isSome_file? (p : Place) : (U.file? p).isSome = (T.file? p).isSome := by
  unfold file?
  split
  · rw [Bool.eq_iff_iff]
    exact Table.mem_keys_iff.symm.trans (h.keys ▸ Table.mem_keys_iff)
  · rfl

theorem locate (path : String) : U.locate path = T.locate path := by
  have follow (parts : List String) (p : Place) : U.follow p parts = T.follow p parts := by
    induction parts generalizing p with
    | nil => rfl
    | cons part rest ih =>
      rw [follow, follow, h.isFolder, ih]
      unfold folderFault
      rw [h.isSome_file?]
  unfold FileTree.locate
  rw [h.here.1, h.here.2, follow]

theorem makeFolders (path : String) : Besides k o (T.makeFolders path) (U.makeFolders path) := by
  have along (parts : List String) {T U : FileTree} (h : Beside k o T U) (p : Place) :
      Besides k o (T.makeAlong p parts) (U.makeAlong p parts) := by
    induction parts generalizing T U p with
    | nil => exact .inr ⟨T, U, rfl, rfl, h⟩
    | cons part rest ih =>
      rw [makeAlong, makeAlong, h.isFolder, h.isSome_file?]
      split
      · exact ih h _
      · split
        · exact .inl ⟨_, rfl, rfl⟩
        · refine ih (T := { T with folders := p.step part :: T.folders })
            (U := { U with folders := p.step part :: U.folders }) ⟨h.here, ?_, h.keys, h.file⟩ _
          exact congrArg (p.step part :: ·) h.folders
  unfold FileTree.makeFolders
  rw [h.here.1, h.here.2]
  split
  · exact .inl ⟨_, rfl, rfl⟩
  · exact along _ h _

theorem write (path text : String) : Besides k o (T.write path text) (U.write path text) := by
  unfold FileTree.write
  rw [h.locate]
  cases T.locate path with
  | error e => exact .inl ⟨e, rfl, rfl⟩
  | ok x =>
    dsimp only [bind, Except.bind]
    rw [h.isFolder]
    split
    · exact .inl ⟨_, rfl, rfl⟩
    · refine .inr ⟨_, _, rfl, rfl, ?_⟩
      split
      · refine ⟨h.here, h.folders, by rw [Table.keys_put, Table.keys_put, h.keys], fun l hl => ?_⟩
        rw [Table.find?_put, Table.find?_put, h.file l hl]
      · exact h

theorem read (other : (o.along (Path.parts path)).path ≠ k) : U.read path = T.read path := by
  unfold FileTree.read
  rw [h.locate]
  cases hl : T.locate path with
  | error e => rfl
  | ok x =>
    rw [← h.here.1, ← locate_along hl] at other
    dsimp only [bind, Except.bind]
    unfold file?
    rw [h.isFolder, h.file _ other]

end Beside

end FileTree

end GdScribe
