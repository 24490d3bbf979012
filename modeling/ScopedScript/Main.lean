import Mathlib.Tactic.DeprecateTo
import ScopedScript.CommandLine
import ScopedScript.Machine.Advance
import ScopedScript.Text.CompactJson

/-!
# The program

Reads what a command needs, lets the library do the work, and writes what it answers.  A running program is
taken forward in stretches of steps, so that its output appears while it runs, and whenever it reads the clock, the
clock is read.
-/

namespace ScopedScript
namespace Program

/-- How many steps at most lie between two looks at the output. -/
def stretch : Nat := 100000

/-- Why a moment before the beginning of 1970 has no reading. -/
def beforeEpoch : String := "second time provided was later than self"

/-- What the clock shows now. -/
def readClock : IO ClockReading := do
  let now ← Std.Time.Timestamp.now
  let second := now.val.second.val
  let nano := now.val.nano.val
  if second < 0 || nano < 0 then return .error beforeEpoch
  return .ok (Float.ofInt second + Float.ofInt nano / 1000000000)

/-- The reason of a failed file operation. -/
def reasonOf : IO.Error → String
  | .noFileOrDirectory .. => CommandLine.noSuchFile
  | .inappropriateType .. => CommandLine.isDirectory
  | .permissionDenied .. => "Permission denied (os error 13)"
  | error => toString error

/-- Look up a file. -/
def lookUp (file : String) : IO FileAnswer := do
  let opened ← EIO.toBaseIO (IO.FS.Handle.mk file .read)
  match opened with
  | .error error => return .unopened (reasonOf error)
  | .ok handle =>
    let contents ← EIO.toBaseIO handle.readBinToEnd
    match contents with
    | .error error => return .unread (reasonOf error)
    | .ok bytes => return .content bytes.toList

/-- Run to the end, writing the output of every stretch and reading the clock for every step that reads it. -/
partial def finish (output : IO.FS.Stream) (config : Config) : IO Config := do
  let ahead := config.advance stretch
  let config ← if ahead.readsClock then pure (ahead.stepReading (← readClock)) else pure ahead
  output.write config.state.sink.written
  output.flush
  let config := config.drained
  if config.isDone then return config else finish output config

/-- Run a text as the next unit of a session. -/
def runUnit (output : IO.FS.Stream) (session : Session) (source : String) :
    IO (Session × UnitResult) := do
  match session.accept source with
  | (session, .error error) => return (session, .rejected error)
  | (session, .ok program) =>
    let config ← finish output (session.state.launch program)
    return session.conclude config

/-- The next line of an input, or none at its end. -/
partial def nextLine (input : IO.FS.Stream) (line : List UInt8) : IO (Option (List UInt8)) := do
  let bytes ← input.read 1
  match bytes.toList with
  | [] => return if line.isEmpty then none else some line.reverse
  | byte :: _ =>
    if byte = CommandLine.lineFeed then return some (CommandLine.endedLine line)
    else nextLine input (byte :: line)

/-- Prompt for lines and run each as a unit, until the input ends. -/
partial def prompt (input output errors : IO.FS.Stream) (session : Session) : IO Nat := do
  output.putStr CommandLine.promptText
  output.flush
  match (← nextLine input []) with
  | none => return 0
  | some line =>
    match CommandLine.promptedSource line with
    | .error message =>
      errors.putStr message
      return CommandLine.hostErrorCode
    | .ok source =>
      let (session, result) ← runUnit output session source
      errors.putStr (CommandLine.unitErrors result).1
      prompt input output errors session

/-- Do what an invocation says; the answer is the exit code. -/
def perform (invocation : Invocation) : IO Nat := do
  let input ← IO.getStdin
  let output ← IO.getStdout
  let errors ← IO.getStderr
  if invocation.log then IO.FS.writeFile CommandLine.logFile "started\n"
  match invocation.command with
  | .tokenize file json =>
    let report := CommandLine.perform CompactJson.write {} (.tokenize file json) (← lookUp file) []
    output.write report.output
    output.flush
    errors.putStr report.errors
    return report.exitCode
  | .run (some file) =>
    match CommandLine.sourceOf file (← lookUp file) with
    | .error message =>
      errors.putStr message
      return CommandLine.hostErrorCode
    | .ok source =>
      let (_, result) ← runUnit output (CommandLine.freshSession {}) source
      let (message, exitCode) := CommandLine.unitErrors result
      errors.putStr message
      return exitCode
  | .run none => prompt input output errors (CommandLine.freshSession {})

end Program
end ScopedScript

/-- Run the command that the words of the command line spell. -/
def main (words : List String) : IO UInt32 := do
  match ScopedScript.CommandLine.parseWords words with
  | some invocation => return UInt32.ofNat (← ScopedScript.Program.perform invocation)
  | none =>
    (← IO.getStderr).putStr ScopedScript.CommandLine.usage
    return UInt32.ofNat ScopedScript.CommandLine.usageCode
