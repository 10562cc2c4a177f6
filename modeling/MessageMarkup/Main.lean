import MessageMarkup.Program

/-!
# The program

Reads the files that a command line names, hands them to `CommandLine.Invocation.output`, and
writes the result.
-/

namespace MessageMarkup

/-- The bytes of a file, if it can be read. -/
def readFile? (path : String) : IO (Option (List UInt8)) := do
  try
    return some (← IO.FS.readBinFile path).toList
  catch _ =>
    return none

/-- The files that a command line may read, from the folder in which the program runs. -/
def readFiles (inv : CommandLine.Invocation) : IO Files := do
  let here := (← IO.currentDir).toString
  let found ← (inv.paths here).mapM fun path => return (path, ← readFile? path)
  return { here, read? := fun path => (found.find? (·.1 == path)).bind (·.2) }

/-- Reports a failure; the exit status. -/
def report (f : Failure) : IO UInt32 := do
  IO.eprintln f.message
  return 1

/-- Runs the program for a command line; the exit status. -/
def execute (inv : CommandLine.Invocation) : IO UInt32 := do
  let files ← readFiles inv
  let stdin ← if inv.input?.isSome then pure ByteArray.empty else (← IO.getStdin).readBinToEnd
  match inv.output files stdin.toList, inv.output? with
  | .error failure, _ => report failure
  | .ok text, none =>
    IO.print text
    return 0
  | .ok text, some path =>
    try
      IO.FS.writeFile path text
      return 0
    catch _ =>
      report (.writeFile path)

end MessageMarkup

open MessageMarkup in
/-- Runs the program with some arguments; the exit status. -/
def main (args : List String) : IO UInt32 := do
  match CommandLine.read args with
  | .ok inv => execute inv
  | .error .version =>
    IO.print CommandLine.versionText
    return 0
  | .error .help =>
    IO.print CommandLine.helpText
    return 0
  | .error .misuse =>
    IO.eprint CommandLine.helpText
    return 2
