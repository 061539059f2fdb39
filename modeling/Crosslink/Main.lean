import Crosslink.Command.Arguments

/-!
# Program

Reads the arguments, reads the directory of the command, runs the command
and shows its outcome. Only this module has effects.
-/

namespace Crosslink.Program

/-- How often a watched directory is looked at, in milliseconds. -/
def watchInterval : UInt32 := 100

mutual

/-- Reads the entries of a directory, except those that are no part of the
tree. -/
partial def readEntries (entries : List IO.FS.DirEntry) :
    IO (List (String × FileTree)) :=
  entries.foldlM (fun read entry => do
    if isLeftOut entry.fileName && entry.fileName != layerFile then
      return read
    return Dictionary.insertEntry entry.fileName (← readEntry entry) read) []

/-- Reads an entry. Only files with text in them are looked into. -/
partial def readEntry (entry : IO.FS.DirEntry) : IO FileTree := do
  if ← entry.path.isDir then
    return .directory (← readEntries (← entry.path.readDir).toList)
  if isDocumentFile entry.fileName || entry.fileName == layerFile then
    match String.fromUTF8? (← IO.FS.readBinFile entry.path) with
    | some text => return .text text
    | none => return .bytes
  return .bytes

end

def readDirectory (place : String) : IO (Option FileTree) := do
  match ← (some <$> IO.FS.realPath place) <|> pure none with
  | none => return none
  | some path =>
    if ← path.isDir then
      return some (.directory (← readEntries (← path.readDir).toList))
    return none

def accessError : IO.Error → FatalError
  | .noFileOrDirectory _ _ _ => .notFound
  | error => .io (toString error)

def showOutcome (outcome : Outcome) : IO UInt32 := do
  IO.print outcome.shown
  (← IO.getStdout).flush
  IO.eprint outcome.notes
  return outcome.exitCode.toUInt32

/-- Writes the file of an outcome and shows the rest. -/
def finish (outcome : Outcome) : IO UInt32 := do
  match outcome.file with
  | none => showOutcome outcome
  | some file =>
    let failure : Option IO.Error ←
      try
        IO.FS.writeFile file.place file.text
        pure none
      catch error => pure (some error)
    match failure with
    | none => showOutcome outcome
    | some error => showOutcome (accessError error).outcome

def runOnce (command : Command) (source : Option FileTree) : IO UInt32 :=
  match command.run source with
  | .ok outcome => finish outcome
  | .error error => showOutcome error.outcome

/-- Checks a directory whenever it differs from what was seen last. -/
partial def watchFrom (place : String) (seen : Option FileTree) :
    IO UInt32 := do
  IO.sleep watchInterval
  let now ← readDirectory place
  if now != seen then
    IO.eprintln "watch: change detected, re-checking..."
    let _ ← runOnce (.check place) now
  watchFrom place now

def runInvocation (invocation : Invocation) : IO UInt32 := do
  IO.eprint invocation.preface
  let place := invocation.command.directory
  let source ← readDirectory place
  let code ← runOnce invocation.command source
  match invocation.command, source with
  | .watch _, some _ => do
    IO.eprintln ("watch: monitoring " ++ place ++ ", press Ctrl+C to stop")
    watchFrom place source
  | _, _ => return code

def run (arguments : List String) : IO UInt32 := do
  match Invocation.ofArguments arguments with
  | .error stop => showOutcome stop.outcome
  | .ok invocation =>
    try
      runInvocation invocation
    catch error => showOutcome (accessError error).outcome

end Crosslink.Program

/-- The program. -/
def main (arguments : List String) : IO UInt32 :=
  Crosslink.Program.run arguments
