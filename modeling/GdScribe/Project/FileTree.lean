import GdScribe.Path
import GdScribe.Table

/-!
# File trees

The files below a folder, with the place in it from which paths are followed.

* `Place`: a position, counted in steps back from the top folder and then parts down from there.
* `FileTree.locate`: the place that a path leads to; every part but the last has to be a folder.
* `FileTree.read`, `write`, `makeFolders`, `enter`, `rename`, `below`: what is done with files.
-/

namespace GdScribe

/-- A position with respect to the top folder: so many steps back, then parts down. -/
structure Place where
  back : Nat := 0
  down : List String := []
  deriving DecidableEq, Repr, Inhabited

namespace Place

def step (p : Place) (part : String) : Place :=
  if part = "" ∨ part = "." then p
  else if part ≠ ".." then { p with down := p.down ++ [part] }
  else if p.down.isEmpty then { p with back := p.back + 1 }
  else { p with down := p.down.dropLast }

def path (p : Place) : String := String.intercalate "/" p.down

end Place

/-- Why something cannot be done with a file. -/
inductive FileFault where
  | notFound
  | isFolder
  | notAFolder
  | alreadyThere
  deriving DecidableEq, Repr, Inhabited

/-- The files below a folder by their paths, the folders that were made, and the place from which
paths are followed. -/
structure FileTree where
  files : Table String := {}
  folders : List Place := []
  here : Place := {}
  deriving Inhabited

namespace FileTree

def file? (t : FileTree) (p : Place) : Option String :=
  if p.back = 0 then t.files.find? p.path else none

/-- Whether there is a folder at a place: one that was made, one with a file below it, or one that
the top folder is in. -/
def isFolder (t : FileTree) (p : Place) : Bool :=
  p.down.isEmpty || t.folders.any (fun f => f.back == p.back && p.down.isPrefixOf f.down) ||
    p.back == 0 && t.files.keys.any fun k => Text.startsWith k (p.path ++ "/")

def folderFault (t : FileTree) (p : Place) : FileFault :=
  if (t.file? p).isSome then .notAFolder else .notFound

/-- Follows parts from a place, all of which but the last have to be folders. -/
def follow (t : FileTree) : Place → List String → Except FileFault Place
  | p, [] => .ok p
  | p, part :: rest =>
    if t.isFolder p then t.follow (p.step part) rest else .error (t.folderFault p)

def locate (t : FileTree) (path : String) : Except FileFault Place :=
  if path.isEmpty || Text.startsWith path "/" then .error .notFound
  else t.follow t.here (Path.parts path)

def hasFolder (t : FileTree) (path : String) : Bool :=
  match t.locate path with
  | .ok p => t.isFolder p
  | .error _ => false

def read (t : FileTree) (path : String) : Except FileFault String := do
  let p ← t.locate path
  if t.isFolder p then throw .isFolder
  match t.file? p with
  | some text => return Text.plainLineEnds text
  | none => throw .notFound

def write (t : FileTree) (path text : String) : Except FileFault FileTree := do
  let p ← t.locate path
  if t.isFolder p then throw .isFolder
  return if p.back = 0 then { t with files := t.files.put p.path text } else t

def makeAlong (t : FileTree) : Place → List String → Except FileFault FileTree
  | _, [] => .ok t
  | p, part :: rest =>
    let p := p.step part
    if t.isFolder p then t.makeAlong p rest
    else if (t.file? p).isSome then .error (if rest.isEmpty then .alreadyThere else .notAFolder)
    else { t with folders := p :: t.folders }.makeAlong p rest

def makeFolders (t : FileTree) (path : String) : Except FileFault FileTree :=
  if path.isEmpty || Text.startsWith path "/" then .error .notFound
  else t.makeAlong t.here (Path.parts path)

def enter (t : FileTree) (path : String) : Except FileFault FileTree := do
  let p ← t.locate path
  if t.isFolder p then return { t with here := p } else throw (t.folderFault p)

def rename (t : FileTree) (path new : String) : Except FileFault FileTree := do
  let p ← t.locate path
  let q ← t.locate new
  match t.file? p with
  | none => throw .notFound
  | some text =>
    if t.isFolder q then throw .isFolder
    return { t with files := (t.files.erase p.path).put q.path text,
                    folders := { p with down := p.down.dropLast } :: t.folders }

def below (t : FileTree) (path : String) : List String :=
  match t.locate path with
  | .error _ => []
  | .ok p =>
    if p.back ≠ 0 then []
    else
      let start := if p.down.isEmpty then "" else p.path ++ "/"
      (t.files.keys.filter (Text.startsWith · start)).map fun k =>
        Path.join path (Text.dropStart k start.length)

end FileTree

end GdScribe
