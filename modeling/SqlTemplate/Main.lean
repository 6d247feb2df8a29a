import SqlTemplate.CommandLine.Run

/-!
# The command line

Reads the files that the arguments name and prints what `CommandLine.run` makes of them.
-/

namespace SqlTemplate

namespace CommandLine

/-- The names of the files that the arguments ask for. -/
def fileNames (arguments : List Text) : List Text :=
  match Request.ofArguments arguments with
  | .ok (.render r) => r.paramsFile.toList ++ r.template.toList
  | _ => []

/-- Why a file cannot be read, told from the error that reading it gave. -/
def faultOf : IO.Error → FileFault
  | .inappropriateType _ code _ =>
    if code = 21 then .isDirectory else .notDirectory
  | .invalidArgument .. => .nameTooLong
  | _ => .notFound

/-- A file with its contents, or why it cannot be read. -/
def readContent (path : Text) : IO (Text × Except FileFault Text) := do
  try
    let content ← IO.FS.readFile (String.ofList path)
    return (path, .ok content.toList)
  catch e => return (path, .error (faultOf e))

/-- The end of a run: its exit code, after the text of a failure. -/
def exitCode : Except Failure Nat → IO UInt32
  | .ok code => return code.toUInt32
  | .error failure => do
    (← IO.getStderr).putStr (String.ofList (line failure.message))
    return 1

/-- Runs the command line on its arguments and prints the outcome. -/
def execute (arguments : List Text) : IO UInt32 := do
  let contents ← (fileNames arguments).mapM readContent
  let files : Files := fun path =>
    match contents.find? fun (p, _) => p == path with
    | some (_, content) => content
    | none => .error .notFound
  let outcome := run files arguments
  (← IO.getStderr).putStr (String.ofList outcome.errors)
  (← IO.getStdout).putStr (String.ofList outcome.output)
  exitCode outcome.ending

end CommandLine

end SqlTemplate

/-- Renders the template that the arguments name. -/
def main (args : List String) : IO UInt32 :=
  SqlTemplate.CommandLine.execute (args.map String.toList)
