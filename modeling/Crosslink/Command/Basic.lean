import Crosslink.Files.Scan
import Crosslink.Json.Printer
import Crosslink.Json.Tree
import Crosslink.Report.Contents
import Crosslink.Report.Problems
import Crosslink.Report.Styled
import Crosslink.Resolution.Phases

/-!
# Commands

What the program can be asked to do with a directory, and what it has to
show afterwards. A command is a function of what stands at its directory;
`Command.runOn` also decides, on a disk held as a value, whether the output
file can be written.
-/

namespace Crosslink

/-- What the user asks for. -/
inductive Command where
  /-- Report problems, and fail if there are any. -/
  | check (directory : String)
  /-- List titles and sections. -/
  | outline (directory : String)
  /-- Report problems, or give the resolved tree, perhaps in a file. -/
  | resolve (directory : String) (json : Bool) (output : Option String)
  /-- Check again whenever something changes. -/
  | watch (directory : String)
deriving Repr, DecidableEq

/-- A text to be written at a place. -/
structure OutputFile where
  place : String
  text : String
deriving Repr, DecidableEq

/-- What is left to show when a command has ended. -/
structure Outcome where
  exitCode : Nat := 0
  shown : String := ""
  /-- What goes to the error stream. -/
  notes : String := ""
  file : Option OutputFile := none
deriving Repr, DecidableEq

/-- The outcome of a fatal error. Exit code 1 is kept for bad
references. -/
def FatalError.outcome (e : FatalError) : Outcome :=
  { exitCode := 2, notes := styled e.report }

namespace Resolution

/-- Problems are reported and make the command fail. -/
def checked (r : Resolution) : Outcome :=
  { exitCode := if r.diagnostics.isEmpty then 0 else 1
    shown := styled (Diagnostic.report r.diagnostics) }

def outlined (r : Resolution) : Outcome := { shown := r.root.contents }

/-- The resolved tree, or the report, is shown or goes to a file. -/
def resolved (r : Resolution) (json : Bool) (output : Option String) :
    Outcome :=
  let report := Diagnostic.report r.diagnostics
  let text := if json then r.toJson.toText ++ "\n" else report
  match output with
  | some place =>
    { notes := "Wrote " ++ place ++ "\n", file := some ⟨place, text⟩ }
  | none => { shown := if json then text else styled report }

end Resolution

namespace Command

def directory : Command → String
  | check directory => directory
  | outline directory => directory
  | resolve directory _ _ => directory
  | watch directory => directory

/-- Scans and resolves the directory at `place`, given what stands
there. -/
def load (place : String) (source : Option FileTree) :
    Except FatalError Resolution :=
  (DocumentRoot.scan place source).map (DocumentRoot.resolve · 1)

/-- Where watching starts. -/
def watchBegins (outcome : Outcome) : Outcome :=
  { outcome with notes := "watch: initial check\n" ++ outcome.notes }

/-- Runs a command, given what stands at its directory. Watching begins
with a check that may fail without ending it. -/
def run (source : Option FileTree) : Command → Except FatalError Outcome
  | check place => (load place source).map Resolution.checked
  | outline place => (load place source).map Resolution.outlined
  | resolve place json output =>
    (load place source).map (Resolution.resolved · json output)
  | watch place =>
    match source with
    | some (.directory _) =>
      match load place source with
      | .ok resolution => .ok (watchBegins resolution.checked)
      | .error error => .ok (watchBegins error.outcome)
    | _ => .error (.directoryNotFound place)

def runOn (disk : FileTree) (c : Command) : Except FatalError Outcome := do
  let outcome ← c.run (disk.at? c.directory)
  match outcome.file with
  | some file => do
    disk.checkWritable file.place
    return outcome
  | none => return outcome

end Command

end Crosslink
