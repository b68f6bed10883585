import SharpFront.CommandLine

/-!
# The program

Reads files and prints what `CommandLine.run` answers. The files are read ahead of the run, each
once.
-/

namespace SharpFront.CommandLine

/-- The text of a file on disk. -/
def readText (path : String) : IO (Except ReadError String) := do
  try
    let bytes ← IO.FS.readBinFile path
    match String.fromUTF8? bytes with
    | some text => return .ok text
    | none => return .error .notText
  catch
    | .noFileOrDirectory .. => return .error .notFound
    | .inappropriateType .. => return .error .isDirectory
    | e => return .error (.other (toString e))

end SharpFront.CommandLine

open SharpFront.CommandLine in
def main (args : List String) : IO UInt32 := do
  let texts ← args.mapM fun path => do return (path, ← readText path)
  let outcome := run args fun path => (texts.lookup path).getD (.error .notFound)
  (← IO.getStdout).putStr outcome.stdout
  (← IO.getStderr).putStr outcome.stderr
  return outcome.exitCode.toUInt32
