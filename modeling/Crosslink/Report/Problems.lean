import Crosslink.Problem

/-!
# Report of a run

Lists the diagnostics of a run under a heading for each document, in the
order in which they come, and counts them. Diagnostics of one document are
expected to stand together: a heading is written wherever the document
changes.
-/

namespace Crosslink

namespace Diagnostic

def item (d : Diagnostic) : String :=
  "- [" ++ d.problem.kind.tag ++ "] " ++ d.problem.message ++ "\n"

/-- The heading before a diagnostic at `path`, if the one before it is at
another path or there is none. -/
def heading (before : Option AbsolutePath) (path : AbsolutePath) : String :=
  match before with
  | none => "# " ++ path.toText ++ "\n\n"
  | some other =>
    if other = path then "" else "\n# " ++ path.toText ++ "\n\n"

/-- The groups of a report, after a diagnostic at `before`. -/
def groupsText (before : Option AbsolutePath) : List Diagnostic → String
  | [] => ""
  | d :: ds => heading before d.path ++ d.item ++ groupsText (some d.path) ds

/-- How often the document changes, counting the first one. -/
def countDocuments (before : Option AbsolutePath) : List Diagnostic → Nat
  | [] => 0
  | d :: ds =>
    (if before = some d.path then 0 else 1) + countDocuments (some d.path) ds

def report (ds : List Diagnostic) : String :=
  if ds.isEmpty then "All references resolved.\n"
  else
    groupsText none ds ++ "\n" ++ toString ds.length ++ " problem(s) in "
      ++ toString (countDocuments none ds) ++ " document(s)\n"

end Diagnostic

end Crosslink
