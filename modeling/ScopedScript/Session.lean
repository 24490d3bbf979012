import ScopedScript.Machine.Run
import ScopedScript.Syntax.ProgramParser
namespace ScopedScript

/-!
# Sessions

A session runs one text after another, each a unit of its own, and keeps the global names between them.
A unit is scanned, parsed and analysed as a whole before any of it runs; one that is rejected there
changes nothing but the supply of reference identities.
-/

/-- The program of a text, with reference identities from `next` on, and the next free one. -/
def readProgram (source : String) (next : RefId) : Except StaticError (List Stmt × RefId) :=
  match tokenize source with
  | .error (fault, line) => .error (.lexical fault line)
  | .ok stream =>
    match parse stream.tokens next with
    | .error error => .error (.syntactic error stream.endLine)
    | .ok result => .ok result

/-- What a session keeps between units. -/
structure Session where
  state : State
  /-- The next free reference identity. -/
  next : RefId := 0

/-- What became of a unit. -/
inductive UnitResult where
  | finished
  | rejected (error : StaticError)
  | failed (failure : Failure)
  | unfinished

namespace UnitResult

/-- The result of a unit that was run. -/
def ofEnding : Ending Unit → UnitResult
  | .done () => finished
  | .failed failure => failed failure
  | .unfinished => unfinished

/-- The report of a unit that did not finish well. -/
def diagnostic? : UnitResult → Option Diagnostic
  | finished => none
  | rejected error => some error.diagnostic
  | failed failure => some failure.diagnostic
  | unfinished => none

end UnitResult

namespace Session

/-- A session in which nothing has run. -/
def start (host : Host) (sink : Sink) (builtins : List Builtin) : Session :=
  { state := State.initial host sink builtins }

/-- Read a text as the next program, without looking at scopes. -/
def read (session : Session) (source : String) : Session × Except StaticError (List Stmt) :=
  match readProgram source session.next with
  | .error error => (session, .error error)
  | .ok (program, next) => ({ session with next }, .ok program)

/-- Analyse the scopes of a program and record the distances of its references. -/
def analyse (session : Session) (program : List Stmt) : Session × Except StaticError (List Stmt) :=
  match resolve program with
  | .error error => (session, .error (.scope error))
  | .ok references =>
    let state := session.state
    let distances := state.distances
    ({ session with state := { state with distances := distances.recordAll references } },
      .ok program)

/-- Read a text as the next unit, ready to run. -/
def accept (session : Session) (source : String) : Session × Except StaticError (List Stmt) :=
  match session.read source with
  | (session, .error error) => (session, .error error)
  | (session, .ok program) => session.analyse program

/-- What is left of a session, and what became of the unit, when a run of it has stopped. -/
def conclude (session : Session) (config : Config) : Session × UnitResult :=
  let state := config.state
  ({ session with state }, .ofEnding (state.flushed config.flowEnding))

/-- Run a text as the next unit, in at most so many steps. -/
def run (fuel : Nat) (session : Session) (source : String) : Session × UnitResult :=
  match session.accept source with
  | (session, .error error) => (session, .rejected error)
  | (session, .ok program) => session.conclude (Config.run fuel (session.state.launch program))

end Session

end ScopedScript
