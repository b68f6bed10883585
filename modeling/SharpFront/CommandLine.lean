import SharpFront.Output
import SharpFront.Settings.Json

/-!
# The command line

One source file and, optionally, a file of settings. The tokens go to the standard output, what is
wrong with the source to the standard error.
-/

namespace SharpFront.CommandLine

/-- Why a file cannot be read as text. -/
inductive ReadError where
  | notFound
  | isDirectory
  | notText
  | other (message : String)
  deriving DecidableEq, Repr

def ReadError.message : ReadError → String
  | notFound => "No such file or directory (os error 2)"
  | isDirectory => "Is a directory (os error 21)"
  | notText => "stream did not contain valid UTF-8"
  | other message => message

structure Outcome where
  exitCode : Nat
  stdout : String := ""
  stderr : String := ""
  deriving DecidableEq, Repr

/-- The last component of a path. Slashes and dots at the end do not count; a path that leads up has
none. -/
def fileName? (path : String) : Option String :=
  match ((path.splitOn "/").filter fun part => part != "" && part != ".").getLast? with
  | some ".." => none
  | last => last

def summary (d : Diagnostics) : String :=
  s!"{d.errors.length} error(s), {d.warnings.length} warning(s), {d.suppressed} suppressed\n"

/-- The texts up to the first one missing, and whether none is. -/
def beforeMissing : List (Option String) → String × Bool
  | [] => ("", true)
  | none :: _ => ("", false)
  | some text :: rest =>
    let (texts, complete) := beforeMissing rest
    (text ++ texts, complete)

/-- The tokens, one a line, the excerpts of the diagnostics, and their counts. It ends with a
diagnostic that cannot be shown. -/
def present (file : String) (o : Output) : Outcome :=
  let stdout := String.join (o.tokens.map fun t => t.render ++ "\n")
  match beforeMissing (o.diagnostics.toList.map (·.excerpt? file o.source)) with
  | (excerpts, true) =>
    { exitCode := if o.success then 0 else 1, stdout, stderr := excerpts ++ summary o.diagnostics }
  | (excerpts, false) => { exitCode := 101, stdout, stderr := excerpts }

/-- The settings in a file; without one, the default settings. -/
def loadSettings (read : String → Except ReadError String) (path? : Option String) :
    Except Outcome Settings :=
  match path? with
  | none => .ok {}
  | some path =>
    let refuse (message : String) : Outcome :=
      ⟨2, "", s!"Failed to load settings from {path}: {message}\n"⟩
    match read path with
    | .error e => .error (refuse e.message)
    | .ok text =>
      match Settings.ofJson text with
      | .error e => .error (refuse e.message)
      | .ok settings => .ok settings

/-- Processes one file. `read` gives the text of a file. -/
def process (read : String → Except ReadError String) (path : String)
    (settingsPath? : Option String) : Outcome :=
  let file := (fileName? path).getD path
  match read path with
  | .error e => ⟨2, "", s!"Failed to read {path}: {e.message}\n"⟩
  | .ok text =>
    match loadSettings read settingsPath? with
    | .error outcome => outcome
    | .ok settings =>
      match preprocess file text settings with
      | .error failure => ⟨1, "", failure.display⟩
      | .ok output => present file output

def run (args : List String) (read : String → Except ReadError String) : Outcome :=
  match args with
  | [path] => process read path none
  | [path, settingsPath] => process read path (some settingsPath)
  | _ => ⟨2, "", "Usage: cfront <file> [settings.json]\n"⟩

end SharpFront.CommandLine
