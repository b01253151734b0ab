import BackupPlan.Run

/-!
# The program

Reads the command line and the configuration file, and prints what a run leaves
behind: the plan on standard output, the log on standard error.
-/

namespace BackupPlan.Program

/-- What a file that could not be read turns out to be. -/
def contentOfError : IO.Error → FileContent
  | .noFileOrDirectory _ code _ =>
    .unopenable "NotFound" ("No such file or directory (os error " ++ toString code ++ ")")
  | .permissionDenied _ code _ =>
    .unopenable "PermissionDenied" ("Permission denied (os error " ++ toString code ++ ")")
  | .inappropriateType _ code _ =>
    .unavailable ("Is a directory (os error " ++ toString code ++ ")")
  | error => .unopenable "Other" (toString error)

/-- Reads a file. -/
def readContent (path : String) : IO FileContent := do
  try
    let content ← IO.FS.readBinFile path
    pure (.bytes content.data.toList)
  catch error => pure (contentOfError error)

/-- The name of the machine, or why the system does not tell it. -/
def machineName : IO (Except String String) := do
  try
    let text ← IO.FS.readFile "/proc/sys/kernel/hostname"
    pure (.ok (String.ofList (text.toList.takeWhile (· != '\n'))))
  catch error => pure (.error (toString error))

/-- Prints a run and answers with its exit code. -/
def report (result : RunResult) : IO UInt32 := do
  IO.print result.output
  for record in shownLog result.log do
    IO.eprintln (record.level.word ++ " " ++ record.topic.word ++ ": " ++ record.message)
  pure (UInt32.ofNat result.exitCode)

/-- Does what the command line asks for. -/
def answer : Request → IO UInt32
  | .help => do
    IO.print CommandLine.helpText
    pure 0
  | .version => do
    IO.print CommandLine.versionText
    pure 0
  | .misuse => do
    IO.eprintln "error: invalid arguments\n\nUsage: duplicity_job [OPTIONS] --config <CONFIG>"
    pure 2
  | .plan config format => do
    let file ← readContent config
    match runPlan (.ofText config) format file (← machineName) with
    | some result => report result
    | none => do
      IO.eprintln "a job cannot be reported on"
      pure 101

end BackupPlan.Program

/-- The entry of the program. -/
def main (args : List String) : IO UInt32 :=
  BackupPlan.Program.answer (BackupPlan.CommandLine.read args)
