import ApiCatalog.Cli.Run
import Std.Time.Zoned

set_option autoImplicit false

/-!
# The command line

The host of the machine, and the program.
-/

namespace ApiCatalog.Cli

/-- A number with at least two digits. -/
def twoDigits (n : Nat) : String :=
  if n < 10 then "0" ++ toString n else toString n

/-- The time of day, in brackets. -/
def timeOfDay : IO String := do
  let time ← Std.Time.PlainTime.now
  let parts := [time.hour.toNat, time.minute.toNat, time.second.toNat]
  return "[" ++ ":".intercalate (parts.map twoDigits) ++ "]"

/-- Reads a file. -/
def readBytes (path : String) : IO (Option (List UInt8)) := do
  try
    let bytes ← IO.FS.readBinFile path
    return some bytes.toList
  catch _ => return none

/-- Writes a file, together with the directories it lies in; tells what stood in the way. -/
def writeText (path text : String) : IO (Option String) := do
  try
    match directory? path with
    | some directory => IO.FS.createDirAll directory
    | none => pure ()
    IO.FS.writeFile path text
    return none
  catch problem => return some (toString problem)

/-- The machine as a host. -/
def machine : IO (Host IO) := do
  let stdout ← IO.getStdout
  let colors ← IO.getEnv "COLORFGBG"
  let isTerminal ← stdout.isTty
  return {
    contents := readBytes
    save := writeText
    printLine := fun line => IO.println line
    printProblem := fun line => IO.eprintln line
    clock := timeOfDay
    terminal := { isTerminal, colors } }

end ApiCatalog.Cli

/-- Runs the command line; a failure is told on the error stream and in the exit code. -/
def main (arguments : List String) : IO UInt32 := do
  let host ← ApiCatalog.Cli.machine
  match ← ApiCatalog.Cli.run host arguments with
  | .error usage =>
    IO.eprintln usage.label
    return usage.exitCode.toUInt32
  | .ok (.error failure) =>
    IO.eprintln ("Error: " ++ failure.message)
    return 1
  | .ok (.ok ()) => return 0
