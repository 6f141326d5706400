import GdScribe.Project.Job

/-!
# Extension projects

An extension project is made from a template: the template is fetched, its files get the name of
the project and the classes that it registers, and the command line goes on from where it was.
-/

namespace GdScribe.Extension

/-- Where the template comes from. -/
def template : String := "https://github.com/godotengine/godot-cpp-template"

/-- Replaces texts in a file, one after the other. -/
def edit (path : String) (changes : List (String × String)) : JobM Unit := do
  let text ← Job.readFile path
  Job.writeFile path (changes.foldl (fun s c => Text.replaceAll s c.1 c.2) text)

/-- The statement that registers a class. -/
def registration (className : String) : String := "ClassDB::register_class<" ++ className ++ ">();"

/-- The commands that give the project a history of its own. -/
def historyCommands : List (List String) :=
  [["git", "submodule", "update", "--init"],
   ["git", "checkout", "--orphan", "new-main", "main"],
   ["git", "commit", "-m", "\"initial commit based on " ++ template ++ "\""],
   ["git", "branch", "-M", "new-main", "main"]]

/-- Makes a project in a folder, for some classes. -/
def create (folder name : String) (classes : List String) : JobM Unit := do
  let path := Path.join folder name
  Job.command ["git", "clone", template ++ ".git", path]
  Job.onTree (·.enter path)
  historyCommands.forM Job.command
  let entry := ("example_library_init", name ++ "_init")
  edit "SConstruct"
    [("EXTENSION-NAME", name),
     ("env.InstallAs(\"\x7b\x7d/bin/\x7b\x7d/lib\x7b\x7d\".format(projectdir, env[\"platform\"], file), library)",
      "env.InstallAs(\"\x7b\x7d/bin/lib\x7b\x7d\".format(projectdir, file), library)")]
  edit "src/register_types.h"
    [("EXAMPLE_REGISTER_TYPES_H", Text.upper name ++ "_REGISTER_TYPES_H")]
  edit "src/register_types.cpp"
    [entry, ("//ClassDB::register_class<YourClass>();",
      String.intercalate "\n\t" (classes.map registration))]
  edit "demo/bin/example.gdextension" [entry, ("gdexample", name)]
  Job.onTree (·.rename "demo/bin/example.gdextension" ("demo/bin/" ++ name ++ ".gdextension"))
  Job.onTree (·.enter "../..")

end GdScribe.Extension
