import GdScribe.Project.Conversion

/-!
# The command line

Converts the scripts below the current folder. The conversion itself is `convert`, a function of
the words of the command line and the files; here the files are read before it and written after
it.

* `load`: the files below a folder.
* `store`: brings the files on disk up to date with a tree.
* Commands for other programs are shown and not run.
-/

namespace GdScribe.CommandLine

/-- Adds the text files below a folder to a table; `start` stands before their names. -/
partial def load (folder start : String) (files : Table String) : IO (Table String) := do
  let mut files := files
  for entry in ← (← IO.FS.realPath folder).readDir do
    let path := start ++ entry.fileName
    if ← entry.path.isDir then
      files ← load (folder ++ "/" ++ entry.fileName) (path ++ "/") files
    else
      try files := files.put path (← IO.FS.readFile entry.path)
      catch _ => pure ()
  return files

/-- Brings the files on disk, of which `old` are known, up to date with a tree. -/
def store (old : Table String) (tree : FileTree) : IO Unit := do
  for place in tree.folders.reverse do
    if place.back = 0 then IO.FS.createDirAll place.path
  for (path, text) in tree.files.entries do
    if old.find? path ≠ some text then IO.FS.writeFile path text
  for path in old.keys do
    if (tree.files.find? path).isNone then IO.FS.removeFile path

end GdScribe.CommandLine

/-- Converts as the words of the command line say; the result tells whether it went well. -/
def main (args : List String) : IO UInt32 := do
  let files ← GdScribe.CommandLine.load "." "" {}
  let report := GdScribe.convert args { files := files }
  for line in report.printed do
    IO.println line
  GdScribe.CommandLine.store files report.tree
  for command in report.commands do
    IO.eprintln ("not run: " ++ String.intercalate " " command)
  match report.trouble with
  | none => return 0
  | some t =>
    IO.eprintln (t.kind ++ ": " ++ t.message?.getD "")
    return t.exitCode.toUInt32
