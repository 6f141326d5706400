import GdScribe.ClassTable.Basic

/-!
# What a run changes in the class table

The classes that are new with respect to an earlier class table, and the entries that were added
to or changed in the classes that it knew.
-/

namespace GdScribe.ClassTable

/-- The tables of a class, with their names. -/
def ClassInfo.tables (c : ClassInfo) : List (String × Table Ty) :=
  [("members", c.members), ("methods", c.methods), ("constants", c.constants), ("enums", c.enums)]

/-- How a class differs from what was known of it. -/
inductive ClassChange where
  | added (info : ClassInfo)
  | extended (tables : List (String × Table Ty))

/-- The tables that differ, with the entries that are new. -/
def tableChanges (now before : ClassInfo) : List (String × Table Ty) :=
  ((ClassInfo.tables now).zip (ClassInfo.tables before)).filterMap fun (n, b) =>
    if n.2 = b.2 then none else some (n.1, n.2.changesSince b.2)

/-- The classes that are new or differ, in the order of the table. -/
def changes (now before : ClassTable) : List (String × ClassChange) :=
  now.entries.filterMap fun (name, info) =>
    match before.find? name with
    | none => some (name, .added info)
    | some old => match tableChanges info old with
      | [] => none
      | ts => some (name, .extended ts)

end GdScribe.ClassTable
