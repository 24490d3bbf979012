import ScopedScript.Session
import ScopedScript.Text.Quoted
import ScopedScript.Text.Utf8
import ScopedScript.Token.Listing
namespace ScopedScript

/-!
# The command line

`tokenize FILE` lists the tokens of a file.  `run FILE` runs a file as one unit, and `run` alone prompts for
lines and runs each as a unit of its own.  What the commands write and the code they exit with are
computed here from the bytes they are given; reading those bytes is left to the caller.
-/

/-- What to do. -/
inductive Command where
  | tokenize (file : String) (json : Bool)
  | run (file : Option String)
  deriving DecidableEq, Repr

/-- A command and whether a log file is wanted. -/
structure Invocation where
  command : Command
  log : Bool := false
  deriving DecidableEq, Repr

/-- What was found under a file name. -/
inductive FileAnswer where
  | content (bytes : List UInt8)
  | unopened (reason : String)
  | unread (reason : String)

/-- What a command writes and the code it exits with. -/
structure Report where
  output : ByteArray := .empty
  errors : String := ""
  exitCode : Nat := 0

namespace CommandLine

/-- Why a file that does not exist cannot be opened. -/
def noSuchFile : String := "No such file or directory (os error 2)"

/-- Why a directory cannot be read as a file. -/
def isDirectory : String := "Is a directory (os error 21)"

/-- The name of the log file. -/
def logFile : String := "app.log"

/-- The number of steps that no run reaches. -/
def ample : Nat := 1 <<< 62

/-- A report that a command could not do its work, with what lies behind it. -/
def hostError (context cause : String) : String :=
  "Error: " ++ context ++ "\n\nCaused by:\n    " ++ cause ++ "\n"

/-- The exit code of a command that could not do its work. -/
def hostErrorCode : Nat := 1

/-- The text of a file, or the report of why there is none. -/
def sourceOf (file : String) : FileAnswer → Except String String
  | .content bytes =>
    match Utf8.decode bytes with
    | .ok source => .ok source
    | .error error =>
      .error (hostError ("File " ++ Quoted.quoteName file ++ " is not valid UTF-8") error.message)
  | .unopened reason => .error (hostError ("Failed to open file " ++ Quoted.quoteName file) reason)
  | .unread reason => .error (hostError ("Failed to read file " ++ Quoted.quoteName file) reason)

/-- Add a line to the output. -/
def addLine (report : Report) (line : String) : Report :=
  { report with output := report.output ++ (line ++ "\n").toUTF8 }

/-- The report once a record could not be written, which ends the listing. -/
def unwritten (report : Report) (reason : String) : Report :=
  { report with errors := report.errors ++ "Error: " ++ reason ++ "\n", exitCode := hostErrorCode }

/-- One line per item of a scan: the tokens go to the output and the faults to the errors.  With a writer for records
the tokens are listed as records. -/
def listItems (writer? : Option RecordWriter) (report : Report) : List ScanItem → Report
  | [] => report
  | item :: rest =>
    match item.row with
    | .ok row =>
      match writer? with
      | none => listItems writer? (addLine report row.plain) rest
      | some write =>
        match write row.record with
        | .ok line => listItems writer? (addLine report line) rest
        | .error reason => unwritten report reason
    | .error (fault, line) =>
      let error := (StaticError.lexical fault line).diagnostic
      listItems writer?
        { report with errors := report.errors ++ error.render ++ "\n", exitCode := error.kind.exitCode } rest

/-- List the tokens of a text. -/
def tokenize (writer? : Option RecordWriter) (source : String) : Report := listItems writer? {} (scan source)

/-- What the end of a unit adds to the errors, and the code to exit with when it was the only one. -/
def unitErrors (result : UnitResult) : String × Nat :=
  match result.diagnostic? with
  | none => ("", 0)
  | some report => (report.render ++ "\n", report.kind.exitCode)

/-- A session that offers a clock and nothing else. -/
def freshSession (host : Host) : Session := Session.start host {} [Builtin.clock]

/-- Run a text as the only unit. -/
def runFile (host : Host) (source : String) : Report :=
  let (after, result) := (freshSession host).run ample source
  let (errors, exitCode) := unitErrors result
  { output := after.state.sink.written, errors, exitCode }

/-- The byte that ends a line. -/
def lineFeed : UInt8 := 10

/-- A byte that is dropped in front of a line feed. -/
def carriageReturn : UInt8 := 13

/-- The bytes in front of a line feed, which come in reverse, without a carriage return at their end. -/
def endedLine : List UInt8 → List UInt8
  | [] => []
  | byte :: before => if byte = carriageReturn then before.reverse else (byte :: before).reverse

/-- Break an input into lines, behind the bytes of the current line and the lines already found, both in
reverse.  Bytes behind the last line feed form a line of their own. -/
def inputLines (line : List UInt8) (done : List (List UInt8)) : List UInt8 → List (List UInt8)
  | [] => (if line.isEmpty then done else line.reverse :: done).reverse
  | byte :: rest =>
    if byte = lineFeed then inputLines [] (endedLine line :: done) rest
    else inputLines (byte :: line) done rest

/-- What is written before each line is read. -/
def promptText : String := "> "

/-- The text of a prompted line, or the report of why there is none. -/
def promptedSource (line : List UInt8) : Except String String :=
  match Utf8.decode line with
  | .ok source => .ok source
  | .error _ =>
    .error (hostError "Failed to read from stdin" "stream did not contain valid UTF-8")

/-- Run lines as units, one after another, until the input ends or is no text. -/
def promptFrom (session : Session) (report : Report) : List (List UInt8) → Report
  | [] => { report with output := report.output ++ promptText.toUTF8 }
  | line :: rest =>
    let output := report.output ++ promptText.toUTF8
    match promptedSource line with
    | .error errors =>
      { output, errors := report.errors ++ errors, exitCode := hostErrorCode }
    | .ok source =>
      let (after, result) := session.run ample source
      let written := after.state.sink.written
      let drained := { after with state.sink := after.state.sink.drained }
      promptFrom drained
        { report with output := output ++ written, errors := report.errors ++ (unitErrors result).1 }
        rest

/-- Prompt for the lines of an input. -/
def prompt (host : Host) (input : List UInt8) : Report :=
  promptFrom (freshSession host) {} (inputLines [] [] input)

/-- Do what a command says, given what was found under its file name and the prompt's input.  Records are written by
the given writer. -/
def perform (write : RecordWriter) (host : Host) (command : Command) (file : FileAnswer) (input : List UInt8) :
    Report :=
  match command with
  | .tokenize name json =>
    match sourceOf name file with
    | .ok source => tokenize (if json then some write else none) source
    | .error errors => { errors, exitCode := hostErrorCode }
  | .run (some name) =>
    match sourceOf name file with
    | .ok source => runFile host source
    | .error errors => { errors, exitCode := hostErrorCode }
  | .run none => prompt host input

/-- The words of a command that are not flags, and whether each flag is among them.  Other words that
begin with a dash are not understood. -/
def parseFlags (words plain : List String) (json log : Bool) :
    Option (List String × Bool × Bool) :=
  match words with
  | [] => some (plain.reverse, json, log)
  | "--json" :: rest => parseFlags rest plain true log
  | "--log" :: rest => parseFlags rest plain json true
  | word :: rest => if word.startsWith "-" then none else parseFlags rest (word :: plain) json log

/-- How the program is called. -/
def usage : String := "usage: tokenize FILE [--json] [--log] | run [FILE] [--log]\n"

/-- The exit code of a call that is not understood. -/
def usageCode : Nat := 2

/-- The invocation that words ask for. -/
def parseWords (words : List String) : Option Invocation :=
  match parseFlags words [] false false with
  | some (["tokenize", file], json, log) => some ⟨.tokenize file json, log⟩
  | some (["run", file], false, log) => some ⟨.run (some file), log⟩
  | some (["run"], false, log) => some ⟨.run none, log⟩
  | _ => none

end CommandLine

end ScopedScript
