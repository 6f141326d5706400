import GdScribe.Project.Conversion

/-!
# The read-me file

The read-me file shows a script and the code it is converted to. It is made from a template, in
which marks stand for the files.
-/

namespace GdScribe.Readme

/-- The program that converts scripts. -/
def converter : String := "addons/gdscript2all/converter/main.py"

/-- The folder of the add-on. -/
def addon : String := "addons/gdscript2all/"

/-- Runs the program, which converts the scripts of the tree. -/
def runConverter (args : List String) : JobM Unit := do
  Job.command ("python" :: converter :: args)
  let r := convert args (← get).tree
  Job.printAll r.printed
  modify fun j => { j with tree := r.tree }

/-- The marks of the template, with the files that they stand for. -/
def marks : List (String × String) :=
  [("__test.gd__", "tests/test.gd"), ("__test.cs__", "results/test.cs"),
   ("__test.hpp__", "results/test.hpp"), ("__test.cpp__", "results/test.cpp")]

/-- Replaces a mark by its file, with spaces for tabs. -/
def fillIn (text : String) (mark : String × String) : JobM String := do
  let file ← Job.readFile mark.2
  return Text.replaceAll text mark.1 (Text.replaceAll file "\t" "    ")

/-- Copies a file to the add-on, if both are there. -/
def copy (file : String) : JobM Unit := do
  Job.command ["cp", file, addon]
  let tree := (← get).tree
  match tree.files.find? file with
  | some text => if tree.hasFolder addon then Job.writeFile (addon ++ file) text
  | none => return

/-- Makes the read-me file, and copies it to the add-on. -/
def make : JobM Unit := do
  Job.print "regenerating README"
  runConverter []
  runConverter ["-t", "Cpp"]
  let template ← Job.readFile "README_TEMPLATE.md"
  Job.writeFile "README.md" (← marks.foldlM fillIn template)
  copy "LICENSE"
  copy "README.md"
  Job.command ["git", "add", "README.md"]
  Job.command ["git", "add", "addons/gdscript2all/README.md"]
  Job.command ["git", "status"]

/-- What making the read-me file tells and leaves. -/
def regenerate (tree : FileTree) : Report := Job.start make tree {}

end GdScribe.Readme
