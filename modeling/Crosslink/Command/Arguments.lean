import Crosslink.Command.Basic

/-!
# Arguments

Reads the arguments of the program: a subcommand, its directory, and
options before or between them. Long options begin with two hyphens, short
ones with one and may be run together; after a lone `--` everything is a
directory. An option may be given once. The value of `--output` follows as
the next argument, after an equals sign, or right behind `-o`.
-/

namespace Crosslink

inductive Subcommand where
  | check
  | outline
  | resolve
  | watch
deriving Repr, DecidableEq

namespace Subcommand

def ofName? : String → Option Subcommand
  | "check" => some check
  | "outline" => some outline
  | "resolve" => some resolve
  | "watch" => some watch
  | _ => none

end Subcommand

/-- Why arguments lead to no command. -/
inductive NoCommand where
  | helpWanted
  | subcommandMissing
  | subcommandUnknown (name : String)
  | optionUnknown (option : String)
  | optionRepeated (option : String)
  | valueMissing (option : String)
  | valueUnexpected (option : String)
  | directoryMissing
  | argumentUnexpected (argument : String)
deriving Repr, DecidableEq

/-- Options and arguments of a subcommand. -/
structure Arguments where
  verbose : Bool := false
  json : Bool := false
  output : Option String := none
  directory : Option String := none
deriving Repr, DecidableEq

/-- A command, and whether the user wants to know more about the run. -/
structure Invocation where
  verbose : Bool
  command : Command
deriving Repr, DecidableEq

namespace Arguments

/-! ## One option -/

def setVerbose (a : Arguments) : Except NoCommand Arguments :=
  if a.verbose then .error (.optionRepeated "--verbose")
  else .ok { a with verbose := true }

def setJson (a : Arguments) : Except NoCommand Arguments :=
  if a.json then .error (.optionRepeated "--json")
  else .ok { a with json := true }

def setOutput (a : Arguments) (place : String) :
    Except NoCommand Arguments :=
  if place = "" then .error (.valueMissing "--output")
  else if a.output.isSome then .error (.optionRepeated "--output")
  else .ok { a with output := some place }

def setDirectory (a : Arguments) (place : String) :
    Except NoCommand Arguments :=
  if place = "" then .error .directoryMissing
  else if a.directory.isSome then .error (.argumentUnexpected place)
  else .ok { a with directory := some place }

/-- An option that takes no value. -/
def withoutValue (option : String) (value : Option (List Char))
    (result : Except NoCommand Arguments) : Except NoCommand Arguments :=
  match value with
  | some _ => .error (.valueUnexpected option)
  | none => result

/-! ## One argument -/

/-- What an argument leaves behind: it is done, or the next argument is the
value of the output option. -/
inductive Step where
  | done (arguments : Arguments)
  | outputNext (arguments : Arguments)

/-- Reads a long option, given what stands behind an equals sign. -/
def readLong (s : Option Subcommand) (a : Arguments) (name : String)
    (value : Option (List Char)) : Except NoCommand Step :=
  if name = "help" then
    (withoutValue "--help" value (.error .helpWanted)).map .done
  else if name = "verbose" then
    (withoutValue "--verbose" value a.setVerbose).map .done
  else if s = some .resolve ∧ name = "json" then
    (withoutValue "--json" value a.setJson).map .done
  else if s = some .resolve ∧ name = "output" then
    match value with
    | some place => (a.setOutput (String.ofList place)).map .done
    | none => .ok (.outputNext a)
  else .error (.optionUnknown ("--" ++ name))

def readShort (s : Option Subcommand) (a : Arguments) :
    List Char → Except NoCommand Step
  | [] => .ok (.done a)
  | 'h' :: _ => .error .helpWanted
  | 'v' :: cs => do readShort s (← a.setVerbose) cs
  | 'o' :: cs =>
    if s = some .resolve then
      match cs with
      | [] => .ok (.outputNext a)
      | '=' :: place => (a.setOutput (String.ofList place)).map .done
      | place => (a.setOutput (String.ofList place)).map .done
    else .error (.optionUnknown "-o")
  | c :: _ => .error (.optionUnknown (String.ofList ['-', c]))

def readOption? (s : Option Subcommand) (a : Arguments) :
    List Char → Option (Except NoCommand Step)
  | '-' :: '-' :: cs =>
    match Text.cutAt '=' cs with
    | some (name, value) =>
      some (readLong s a (String.ofList name) (some value))
    | none => some (readLong s a (String.ofList cs) none)
  | '-' :: c :: cs => some (readShort s a (c :: cs))
  | _ => none

/-! ## All arguments -/

def isValue (argument : String) : Bool :=
  match argument.toList with
  | '-' :: _ :: _ => false
  | _ => true

/-- Takes directories only. -/
def readDirectories (a : Arguments) : List String →
    Except NoCommand Arguments
  | [] => .ok a
  | argument :: arguments => do
    readDirectories (← a.setDirectory argument) arguments

def read (s : Subcommand) (a : Arguments) : List String →
    Except NoCommand Arguments
  | [] => .ok a
  | argument :: arguments =>
    if argument = "--" then readDirectories a arguments
    else
      match readOption? (some s) a argument.toList with
      | none => do read s (← a.setDirectory argument) arguments
      | some (.error stop) => .error stop
      | some (.ok (.done a)) => read s a arguments
      | some (.ok (.outputNext a)) =>
        match arguments with
        | [] => .error (.valueMissing "--output")
        | value :: arguments =>
          if isValue value then do read s (← a.setOutput value) arguments
          else .error (.valueMissing "--output")

def toCommand (s : Subcommand) (a : Arguments) : Except NoCommand Command :=
  match s, a.directory with
  | _, none => .error .directoryMissing
  | .check, some place => .ok (.check place)
  | .outline, some place => .ok (.outline place)
  | .resolve, some place => .ok (.resolve place a.json a.output)
  | .watch, some place => .ok (.watch place)

end Arguments

namespace Invocation

/-- The arguments of `help`: at most the names of a subcommand. -/
def readHelp : List String → NoCommand
  | [] => .helpWanted
  | name :: _ =>
    if name = "help" ∨ (Subcommand.ofName? name).isSome then .helpWanted
    else .subcommandUnknown name

def read (a : Arguments) : List String → Except NoCommand Invocation
  | [] => .error .subcommandMissing
  | argument :: arguments =>
    match Arguments.readOption? none a argument.toList with
    | some (.error stop) => .error stop
    | some (.ok (.done a)) => read a arguments
    | some (.ok (.outputNext _)) => .error (.optionUnknown argument)
    | none =>
      if argument = "help" then .error (readHelp arguments)
      else
        match Subcommand.ofName? argument with
        | none => .error (.subcommandUnknown argument)
        | some s => do
          let inner ← Arguments.read s {} arguments
          let command ← inner.toCommand s
          return ⟨a.verbose || inner.verbose, command⟩

def ofArguments (arguments : List String) : Except NoCommand Invocation :=
  read {} arguments

end Invocation

namespace NoCommand

/-- How the program is called. -/
def usage : String :=
  "Resolve references and build section outlines for trees of markdown "
    ++ "documents\n\n"
    ++ "Usage: crosslink [OPTIONS] <COMMAND> <DIR>\n\n"
    ++ "Commands:\n"
    ++ "  check    Report invalid references, and fail if there are any\n"
    ++ "  outline  Print every document's title and section outline\n"
    ++ "  resolve  Resolve all references and print the report\n"
    ++ "  watch    Check again whenever a file in the tree changes\n\n"
    ++ "Options:\n"
    ++ "  -v, --verbose        Say more about the run\n"
    ++ "      --json           With resolve: print the tree as JSON\n"
    ++ "  -o, --output <FILE>  With resolve: write the result to a file\n"
    ++ "  -h, --help           Print help\n"

/-- What is wrong with the arguments. -/
def message : NoCommand → String
  | helpWanted => ""
  | subcommandMissing => "a subcommand is required"
  | subcommandUnknown name => "unknown subcommand " ++ name
  | optionUnknown option => "unknown option " ++ option
  | optionRepeated option => option ++ " is given more than once"
  | valueMissing option => "a value is required for " ++ option
  | valueUnexpected option => option ++ " takes no value"
  | directoryMissing => "a directory is required"
  | argumentUnexpected argument => "unexpected argument " ++ argument

/-- Help is shown; anything else is an error. -/
def outcome (stop : NoCommand) : Outcome :=
  match stop with
  | helpWanted => { shown := usage }
  | stop =>
    { exitCode := 2, notes := "error: " ++ stop.message ++ "\n\n" ++ usage }

end NoCommand

namespace Invocation

/-- What is said before the command runs. -/
def preface (i : Invocation) : String :=
  if i.verbose then "scanning " ++ i.command.directory ++ "\n" else ""

def runOn (disk : FileTree) (i : Invocation) : Outcome :=
  let outcome :=
    match i.command.runOn disk with
    | .ok outcome => outcome
    | .error error => error.outcome
  { outcome with notes := i.preface ++ outcome.notes }

end Invocation

def runProgram (arguments : List String) (disk : FileTree) : Outcome :=
  match Invocation.ofArguments arguments with
  | .error stop => stop.outcome
  | .ok invocation => invocation.runOn disk

end Crosslink
