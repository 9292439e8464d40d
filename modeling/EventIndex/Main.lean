import EventIndex.CommandLine
import Std.Time.DateTime.Timestamp

/-!
# The program

The command on the system that it is started on: the settings come from the environment, the journal
goes to standard output, and an error to standard error. There is no client for databases here, so a
database can be named but not reached.
-/

open EventIndex

/-- There is no database to reach. -/
instance : Sql.Server Empty where
  connect := nofun
  execute _ := nofun

def systemTime : IO Timestamp := do
  let nanos := (← Std.Time.Timestamp.now).toNanosecondsSinceUnixEpoch.val
  return (Timestamp.ofUnix? (nanos / 1000000000) (nanos % 1000000000).toNat).getD .epoch

def fileErrorText : IO.Error → String
  | .noFileOrDirectory .. => "No such file or directory (os error 2)"
  | .permissionDenied .. => "Permission denied (os error 13)"
  | .inappropriateType .. => "Is a directory (os error 21)"
  | e => toString e

def fileContent (path : String) : IO (Except String String) := do
  match (← (IO.FS.readBinFile path).toBaseIO) with
  | .ok bytes =>
    match String.fromUTF8? bytes with
    | some content => return .ok content
    | none => return .error "stream did not contain valid UTF-8"
  | .error e => return .error (fileErrorText e)

/-- Prints a line of the journal with the time at which it was written. -/
def printLine (line : Line) : IO Unit := do
  IO.println s!"{(← systemTime).microsText} {line.text}"
  (← IO.getStdout).flush

/-- The system, with the settings that were read from its environment. -/
def systemHost (settings : List (String × String)) : Host IO Empty where
  setting name := settings.lookup name
  contentOf := fileContent
  note := printLine
  now := systemTime
  pause ms := IO.sleep (UInt32.ofNat (min ms.toNat (UInt32.size - 1)))
  database _ := pure (.error (.configuration "no database client is available"))
  release := nofun

def readSettings : IO (List (String × String)) :=
  Config.variableNames.filterMapM fun name => do
    return (← IO.getEnv name).map fun value => (name, value)

def main : IO UInt32 := do
  match (← (CommandLine.run (systemHost (← readSettings))).run) with
  | .ok () => return 0
  | .error e =>
    IO.eprint e.text
    return 1
