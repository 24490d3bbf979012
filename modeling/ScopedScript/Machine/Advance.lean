import ScopedScript.Machine.Run
namespace ScopedScript

/-!
# Runs that wait for the clock

The clock of a host need not be known ahead.  A run is taken forward up to the next step that reads the clock, and
the reading is handed in just before that step.
-/

/-- Whether a call of a value with so many arguments comes to a builtin, which sees the clock. -/
def State.asksBuiltin (state : State) (callee : Value) (count : Nat) : Bool :=
  match callee with
  | .function _ (.builtin builtin) => count == builtin.arity && !state.isAtCallLimit
  | _ => false

namespace Config

/-- Whether the next step reads the clock. -/
def readsClock (config : Config) : Bool :=
  match config.focus with
  | .value callee (.callee _ [] _) => config.state.asksBuiltin callee 0
  | .value _ (.argument _ callee done [] _) => config.state.asksBuiltin callee (done.length + 1)
  | _ => false

/-- The same running program of a host with another clock. -/
def withClock (config : Config) (clock : Nat → ClockReading) : Config :=
  { config with state.host.clock := clock }

/-- At most so many steps, up to the first one that reads the clock. -/
def advance : Nat → Config → Config
  | 0, config => config
  | fuel + 1, config => if config.isDone || config.readsClock then config else advance fuel config.step

/-- The step that reads the clock, when this is what it shows. -/
def stepReading (config : Config) (reading : ClockReading) : Config := (config.withClock fun _ => reading).step

/-- A running program once its output so far was taken out of the sink. -/
def drained (config : Config) : Config := { config with state.sink := config.state.sink.drained }

end Config

end ScopedScript
