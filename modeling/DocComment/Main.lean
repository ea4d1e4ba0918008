import DocComment.CommandLine.Run

/-!
# The command

Reads what the command may look at, lets `CommandLine.run` decide, and writes what it says.
-/

namespace DocComment

def readEntry (path : String) : IO FileEntry := do
  let full := (← IO.currentDir) / path
  if ← full.isDir then return .directory
  try return .file (← IO.FS.readBinFile full)
  catch _ => return .missing

/-- The variables in the record of the environment that the system keeps: texts with a `NUL` behind
each, and in each a name, `=` and a value. -/
def environmentOf (record : String) : List (String × String) :=
  (Text.separated '\x00' record.toList).filterMap fun entry =>
    match entry.dropWhile (· ≠ '=') with
    | [] => none
    | _ :: value => some (String.ofList (entry.takeWhile (· ≠ '=')), String.ofList value)

def readEnvironment : IO (List (String × String)) := do
  match (← readEntry "/proc/self/environ") with
  | .file content => return environmentOf ((String.fromUTF8? content).getD "")
  | _ => return []

/-- All of standard input, if the command reads it. -/
def readInput (args : List String) : IO ByteArray := do
  if CommandLine.readsInput args then (← IO.getStdin).readBinToEnd else return .empty

end DocComment

open DocComment

/-- Runs the command, and exits with its code. -/
def main (args : List String) : IO UInt32 := do
  let environment ← readEnvironment
  let envFile ← readEntry Settings.envFileName
  let paths := CommandLine.paths args environment envFile
  let entries ← paths.mapM fun path => return (path, ← readEntry path)
  let files := (Settings.envFileName, envFile) :: entries
  let outcome := CommandLine.run {
    args, environment
    files := fun path => (files.lookup path).getD .missing
    input := ← readInput args }
  IO.print outcome.output
  match outcome with
  | .misused cause => IO.eprintln cause.message
  | _ => pure ()
  return outcome.exitCode.toUInt32
