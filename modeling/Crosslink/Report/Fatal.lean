import Crosslink.Config.Layer

/-!
# Fatal errors

What ends a run: a directory that is not there, a file that cannot be
read, a configuration that cannot be used. Bad references are no errors in
this sense, they are diagnostics. `message` is the error in one line,
`report` the explanation shown to the user.
-/

namespace Crosslink

/-- A cause that ends a run. Files are named by their place on disk. -/
inductive FatalError where
  /-- The configuration in `file` holds an unusable value. -/
  | configInvalid (file reason : String)
  | directoryNotFound (directory : String)
  | invalidPath (path reason : String)
  /-- A file cannot be read or written. -/
  | io (cause : String)
  | json (cause : String)
  | parseFailed (file reason : String)
  | pattern (cause : String)
  /-- The configuration in `file` is not well-formed. -/
  | malformedConfig (file cause : String)
  /-- A directory cannot be listed. -/
  | walk (cause : String)
  | watchFailed (reason : String)
deriving Repr, DecidableEq

namespace FatalError

def ofPath (e : PathError) : FatalError := .invalidPath e.raw e.reason

/-- The error of a layer read from `file`. -/
def ofLayer (file : String) (e : LayerError) : FatalError :=
  .configInvalid file e.reason

/-- A file was expected where a directory is. -/
def isDirectory : FatalError := .io "Is a directory (os error 21)"

/-- A directory was expected where a file is. -/
def notDirectory : FatalError := .io "Not a directory (os error 20)"

/-- A text file holds bytes that are not text. -/
def notText : FatalError := .io "stream did not contain valid UTF-8"

def notFound : FatalError := .io "No such file or directory (os error 2)"

/-- The configuration in `file` cannot be read as one. -/
def unreadableConfig (file : String) : FatalError :=
  .malformedConfig file "not a configuration"

/-- The error in one line. The text of a malformed configuration ends in a
line feed of its own. -/
def message : FatalError → String
  | configInvalid file reason =>
    "invalid configuration in " ++ file ++ ": " ++ reason
  | directoryNotFound directory => "directory not found: " ++ directory
  | invalidPath path reason => "invalid path `" ++ path ++ "`: " ++ reason
  | io cause => "io: " ++ cause
  | json cause => "json: " ++ cause
  | parseFailed file reason => "parse failed: " ++ file ++ ": " ++ reason
  | pattern cause => "pattern: " ++ cause
  | malformedConfig file cause =>
    "toml deserialize in " ++ file ++ ": " ++ cause ++ "\n"
  | walk cause => "walk: " ++ cause
  | watchFailed reason => "watch failed: " ++ reason

/-- The advice given for an unusable value. -/
def configAdvice : String :=
  "\n## Fix\n\n"
    ++ "Check the keys documented for `directory.toml` and front matter:\n"
    ++ "`first_header_as_title`, `target_formats`, `[links.targets]`, "
    ++ "`[[links.mappings]]`.\n"

/-- The explanation shown to the user. -/
def report : FatalError → String
  | configInvalid file reason =>
    "# Error: Invalid Configuration\n\n`" ++ file ++ "`: " ++ reason ++ "\n"
      ++ configAdvice
  | directoryNotFound directory =>
    "# Error: Directory Not Found\n\n`" ++ directory ++ "` does not exist.\n"
  | invalidPath path reason =>
    "# Error: Invalid Path\n\n`" ++ path ++ "`: " ++ reason ++ "\n"
  | parseFailed file reason =>
    "# Error: Parse Failed\n\nCould not parse `" ++ file ++ "`: " ++ reason
      ++ "\n"
  | malformedConfig file cause =>
    "# Error: Invalid TOML\n\n`" ++ file ++ "`: " ++ cause ++ "\n\n"
  | watchFailed reason => "# Error: Watch Failed\n\n" ++ reason ++ "\n"
  | error => "# Error\n\n" ++ error.message ++ "\n"

end FatalError

end Crosslink
