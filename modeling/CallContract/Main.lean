import CallContract.CommandLine

/-!
# Entry point

Reads the files that the request names, runs the command on them, and writes its outcome.
-/

namespace CallContract.CommandLine

/-- The contents of a file, or the reason that there are none. -/
def readContents (path : String) : IO (Except String String) := do
  try
    return .ok (← IO.FS.readFile path)
  catch
    | .noFileOrDirectory .. => return .error Folder.Trouble.missing.message
    | e => return .error (toString e)

/-- The outcome of the command on the files of the file system. -/
def runOnFiles (request : Request) : IO Outcome := do
  let contents ← (paths request).mapM fun path => return (path, ← readContents path)
  let files : Files := fun path => (contents.lookup path).getD (.error Folder.Trouble.missing.message)
  return answer files request

end CallContract.CommandLine

open CallContract.CommandLine in
/-- Runs the command. -/
def main (arguments : List String) : IO UInt32 := do
  match Request.ofArguments arguments with
  | none =>
    IO.eprint usage
    return 2
  | some request =>
    let outcome ← runOnFiles request
    IO.print outcome.stdout
    IO.eprint outcome.stderr
    return outcome.exit.toUInt32
