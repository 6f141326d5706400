import GdScribe.Text.Edit

/-!
# Paths

Paths are texts with parts between slashes.

* `normal`: the path without empty parts, single dots and steps back that can be left out.
* `dir`, `base`, `join`: the path of the folder, the last part, and one path below another.
* `scriptName`, `short`: how a path is named to the reader and in messages.
-/

namespace GdScribe.Path

def parts (path : String) : List String := Text.split path "/"

/-- Adds a part to the parts of a normal path, which are reversed; `rooted` tells whether the
path starts at the root. -/
def pushPart (rooted : Bool) (done : List String) (part : String) : List String :=
  if part = "" ∨ part = "." then done
  else if part ≠ ".." then part :: done
  else match done with
    | [] => if rooted then [] else [part]
    | last :: rest => if last = ".." then part :: done else rest

/-- The slashes that a normal path starts with: two stay two, more are one. -/
def root (path : String) : String :=
  match (path.toList.takeWhile (· == '/')).length with
  | 0 => ""
  | 2 => "//"
  | _ => "/"

/-- The path without parts that lead nowhere; the path of the place itself is a dot. -/
def normal (path : String) : String :=
  let start := root path
  let done := (parts path).foldl (pushPart (start ≠ "")) []
  let text := start ++ String.intercalate "/" done.reverse
  if text.isEmpty then "." else text

def base (path : String) : String := (parts path).getLast?.getD ""

/-- The path of the folder, without slashes at its end unless it has nothing else. -/
def dir (path : String) : String :=
  let head := Text.dropEnd path (base path).length
  let trimmed := String.ofList (head.toList.reverse.dropWhile (· == '/')).reverse
  if trimmed.isEmpty then head else trimmed

def join (folder path : String) : String :=
  if Text.startsWith path "/" then path
  else if folder.isEmpty || Text.endsWith folder "/" then folder ++ path
  else folder ++ "/" ++ path

/-- Whether the last part of a path has an extension, with more than dots before it. -/
def hasExtension (path extension : String) : Bool :=
  extension.toList.isSuffixOf ((base path).toList.dropWhile (· == '.'))

/-- The name of a script: the last part of its path up to the first dot. -/
def scriptName (path : String) : String := (Text.splitUpTo (base path) "." 1).headD ""

def short (path : String) : String :=
  match (parts path).reverse with
  | last :: folder :: _ => folder ++ "/" ++ last
  | _ => base path

end GdScribe.Path
