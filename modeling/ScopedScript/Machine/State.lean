import ScopedScript.Scope.ByName
import ScopedScript.Sink
import ScopedScript.Value
namespace ScopedScript

/-!
# The state of a running program

The state is what survives from step to step: the scopes and which of them is current, how many calls are
active, the recorded distances, and the output.  A reference with a recorded distance means a name in
the scope so many links outward from the current one; every other reference means a global name.
-/

/-- What the host provides. -/
structure Host where
  /-- What the clock shows when it is read for the first time, for the second time, and so on. -/
  clock : Nat → ClockReading := fun _ => .ok 1
  /-- How many times the clock was read. -/
  ticks : Nat := 0
  /-- How many calls may be active at once; without a limit there may be any number. -/
  callLimit : Option Nat := some 10000

namespace Host

/-- What the clock shows now. -/
def reading (host : Host) : ClockReading := host.clock host.ticks

/-- The host once the clock was read. -/
def tick (host : Host) : Host := { host with ticks := host.ticks + 1 }

end Host

/-- What survives from step to step. -/
structure State where
  host : Host := {}
  heap : Heap Value
  scope : ScopeId
  /-- How many calls are active. -/
  depth : Nat := 0
  distances : Distances := {}
  /-- The identity of the next function value. -/
  identity : Nat := 0
  sink : Sink := {}

/-- The scope of the top level. -/
def globalScope : ScopeId := 0

namespace State

/-- Bind a name in the current scope. -/
def define (state : State) (name : String) (value : Value) : State :=
  { state with heap := state.heap.define state.scope name value }

/-- Bind a new function value in the current scope. -/
def defineFunction (state : State) (name : String) (callable : Callable) : State :=
  let identity := state.identity
  { state.define name (.function identity callable) with identity := identity + 1 }

/-- Make a new scope inside the given one current. -/
def enterScope (state : State) (outer : ScopeId) : State :=
  let scope := state.heap.nextId
  { state with heap := state.heap.create (some outer), scope }

/-- Make a scope current again. -/
def leaveScope (state : State) (outer : ScopeId) : State := { state with scope := outer }

/-- Bind parameters to arguments in the current scope, in order. -/
def bindParameters (state : State) : List Identifier → List Value → State
  | parameter :: parameters, argument :: arguments =>
    (state.define parameter.name argument).bindParameters parameters arguments
  | _, _ => state

/-- Begin a call of a closure: one more active call, and the parameters in a scope inside the one that
the closure remembers. -/
def enterCall (state : State) (closure : Closure) (arguments : List Value) : State :=
  let inside := { state with depth := state.depth + 1 }.enterScope closure.scope
  inside.bindParameters closure.parameters arguments

/-- End a call: one active call less, and the caller's scope is current again. -/
def leaveCall (state : State) (caller : ScopeId) : State :=
  { state with depth := state.depth - 1, scope := caller }

/-- Whether no further call may begin. -/
def isAtCallLimit (state : State) : Bool :=
  match state.host.callLimit with
  | some limit => limit ≤ state.depth
  | none => false

/-- Print a text on a line of its own, and say whether the sink took all of it. -/
def writeLine (state : State) (text : String) : State × Bool :=
  let written := state.sink.writeLine text
  ({ state with sink := written.1 }, written.2)

/-- The value that a reference reads: by its distance when one is recorded, else by its name at the
top level. -/
def read (state : State) (ref : RefId) (target : Identifier) : Except Failure Value :=
  match state.distances.find? ref with
  | some distance =>
    match state.heap.getAt state.scope distance target.name with
    | .ok value => .ok value
    | .error defect => .error (.defect defect)
  | none =>
    match state.heap.get globalScope target with
    | .ok value => .ok value
    | .error error => .error (.runtime error)

/-- Assign to the variable that a reference means. -/
def assign (state : State) (ref : RefId) (target : Identifier) (value : Value) : State × Except Failure Unit :=
  match state.distances.find? ref with
  | some distance =>
    match state.heap.assignAt state.scope distance target.name value with
    | .ok heap => ({ state with heap }, .ok ())
    | .error defect => (state, .error (.defect defect))
  | none =>
    match state.heap.assign globalScope target value with
    | (heap, .ok ()) => ({ state with heap }, .ok ())
    | (heap, .error error) => ({ state with heap }, .error (.runtime error))

/-- Read the clock. -/
def tick (state : State) : State := { state with host := state.host.tick }

end State

end ScopedScript
