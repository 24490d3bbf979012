import ScopedScript.Machine.Operators
import ScopedScript.Machine.Stack
namespace ScopedScript

/-!
# One step at a time

`step` does one thing and never recurs into expressions or statements, so neither deep nesting nor deep
calls need a stack of the host.  A failure unwinds both stacks, one entry at a time, and undoes what an
entry has set up, exactly as a normal end and a `return` do.
-/

namespace Config

/-- Fail where a value was awaited. -/
def failValue (state : State) (cause : RuntimeCause) (line : Nat) (stack : ValueStack) : Config :=
  ⟨state, .unwindValue (.runtime ⟨cause, line⟩) stack⟩

/-- Fail where the end of a statement was awaited. -/
def failFlow (state : State) (cause : RuntimeCause) (line : Nat) (stack : FlowStack) : Config :=
  ⟨state, .unwindFlow (.runtime ⟨cause, line⟩) stack⟩

/-- Deliver the result of an operator. -/
def deliver (state : State) (line : Nat) (result : Except RuntimeCause Value) (stack : ValueStack) :
    Config :=
  match result with
  | .ok value => ⟨state, .value value stack⟩
  | .error cause => failValue state cause line stack

/-- Begin to evaluate an expression. -/
def evaluate (state : State) (e : Expr) (stack : ValueStack) : Config :=
  match e with
  | .constant value => ⟨state, .value (.ofConstant value) stack⟩
  | .group inner => ⟨state, .evaluate inner stack⟩
  | .unary op line operand => ⟨state, .evaluate operand (.unary op line stack)⟩
  | .binary op line left right => ⟨state, .evaluate left (.binaryLeft op line right stack)⟩
  | .logical op left right => ⟨state, .evaluate left (.logical op right stack)⟩
  | .variable ref target =>
    match state.read ref target with
    | .ok value => ⟨state, .value value stack⟩
    | .error failure => ⟨state, .unwindValue failure stack⟩
  | .assign ref target value => ⟨state, .evaluate value (.assign ref target stack)⟩
  | .call callee line arguments => ⟨state, .evaluate callee (.callee line arguments stack)⟩

/-- Call a value with arguments.  It must be a function, take as many arguments, and find room for one
more active call, in this order. -/
def call (state : State) (line : Nat) (callee : Value) (arguments : List Value)
    (stack : ValueStack) : Config :=
  match callee with
  | .function _ callable =>
    if arguments.length ≠ callable.arity then
      failValue state (.arity callable.arity arguments.length) line stack
    else if state.isAtCallLimit then failValue state .stackOverflow line stack
    else
      match callable with
      | .builtin builtin =>
        match builtin.apply state.host.reading arguments with
        | .ok value => ⟨state.tick, .value value stack⟩
        | .error message => failValue state.tick (.builtin message) line stack
      | .closure closure =>
        let caller := state.scope
        ⟨state.enterCall closure arguments, .executeAll closure.body (.leaveCall caller stack)⟩
  | _ => failValue state .notCallable line stack

/-- Evaluate the remaining arguments, and call when none is left. -/
def evaluateArguments (state : State) (line : Nat) (callee : Value) (done : List Value)
    (pending : List Expr) (stack : ValueStack) : Config :=
  match pending with
  | [] => call state line callee done.reverse stack
  | next :: rest => ⟨state, .evaluate next (.argument line callee done rest stack)⟩

/-- Evaluate and print the remaining expressions of a `print`. -/
def printNext (state : State) (line : Nat) (pending : List Expr) (stack : FlowStack) : Config :=
  match pending with
  | [] => ⟨state, .flow .normal stack⟩
  | next :: rest => ⟨state, .evaluate next (.print line rest stack)⟩

/-- Print a value, and go on with the remaining expressions when the sink took all of it. -/
def print (state : State) (line : Nat) (value : Value) (pending : List Expr) (stack : FlowStack) :
    Config :=
  match state.writeLine value.render with
  | (state, true) => printNext state line pending stack
  | (state, false) => failFlow state (.output Sink.fullReason) line stack

/-- Execute the branch that a condition chooses, when there is one. -/
def chooseBranch (state : State) (condition : Value) (whenTrue : Stmt) (whenFalse : Option Stmt)
    (stack : FlowStack) : Config :=
  if condition.isTruthy then ⟨state, .execute whenTrue stack⟩
  else
    match whenFalse with
    | some other => ⟨state, .execute other stack⟩
    | none => ⟨state, .flow .normal stack⟩

/-- Begin a round of a loop. -/
def beginRound (state : State) (loop : Loop) (stack : FlowStack) : Config :=
  match loop.condition with
  | some condition => ⟨state, .evaluate condition (.loopCondition loop stack)⟩
  | none => ⟨state, .execute loop.body (.loopBody loop stack)⟩

/-- End a round of a loop. -/
def endRound (state : State) (loop : Loop) (stack : FlowStack) : Config :=
  match loop.increment with
  | some increment => ⟨state, .evaluate increment (.loopIncrement loop stack)⟩
  | none => beginRound state loop stack

/-- Begin to execute a statement. -/
def execute (state : State) (s : Stmt) (stack : FlowStack) : Config :=
  match s with
  | .expression value => ⟨state, .evaluate value (.discard stack)⟩
  | .print line values => printNext state line values stack
  | .declare target initializer =>
    match initializer with
    | some value => ⟨state, .evaluate value (.declare target.name stack)⟩
    | none => ⟨state.define target.name .nil, .flow .normal stack⟩
  | .block body =>
    let outer := state.scope
    ⟨state.enterScope outer, .executeAll body (.leaveScope outer stack)⟩
  | .branch condition whenTrue whenFalse =>
    ⟨state, .evaluate condition (.branch whenTrue whenFalse stack)⟩
  | .whileLoop condition body => beginRound state ⟨some condition, none, body⟩ stack
  | .forLoop initializer condition increment body =>
    let outer := state.scope
    let inside := state.enterScope outer
    let loop := Loop.mk condition increment body
    match initializer with
    | some first => ⟨inside, .execute first (.loopStart loop (.leaveScope outer stack))⟩
    | none => beginRound inside loop (.leaveScope outer stack)
  | .function target parameters body =>
    let closure := Closure.mk target.name parameters body state.scope
    ⟨state.defineFunction target.name (.closure closure), .flow .normal stack⟩
  | .giveBack _ value =>
    match value with
    | some value => ⟨state, .evaluate value (.giveBack stack)⟩
    | none => ⟨state, .flow (.returned .nil) stack⟩

/-- Hand a value to what waits for it. -/
def resumeValue (state : State) (value : Value) : ValueStack → Config
  | .bottom => ⟨state, .value value .bottom⟩
  | .unary op line stack => deliver state line (op.apply value) stack
  | .binaryLeft op line right stack => ⟨state, .evaluate right (.binaryRight op line value stack)⟩
  | .binaryRight op line left stack => deliver state line (op.apply left value) stack
  | .logical op right stack =>
    if op.isDecidedBy value then ⟨state, .value value stack⟩ else ⟨state, .evaluate right stack⟩
  | .assign ref target stack =>
    match state.assign ref target value with
    | (state, .ok ()) => ⟨state, .value value stack⟩
    | (state, .error failure) => ⟨state, .unwindValue failure stack⟩
  | .callee line arguments stack => evaluateArguments state line value [] arguments stack
  | .argument line callee done pending stack =>
    evaluateArguments state line callee (value :: done) pending stack
  | .discard stack => ⟨state, .flow .normal stack⟩
  | .print line pending stack => print state line value pending stack
  | .declare name stack => ⟨state.define name value, .flow .normal stack⟩
  | .branch whenTrue whenFalse stack => chooseBranch state value whenTrue whenFalse stack
  | .loopCondition loop stack =>
    if value.isTruthy then ⟨state, .execute loop.body (.loopBody loop stack)⟩
    else ⟨state, .flow .normal stack⟩
  | .loopIncrement loop stack => beginRound state loop stack
  | .giveBack stack => ⟨state, .flow (.returned value) stack⟩

/-- Hand the end of a statement to what waits for it. -/
def resumeFlow (state : State) (flow : Flow) : FlowStack → Config
  | .bottom => ⟨state, .flow flow .bottom⟩
  | .sequence rest stack =>
    match flow with
    | .normal => ⟨state, .executeAll rest stack⟩
    | .returned value => ⟨state, .flow (.returned value) stack⟩
  | .loopStart loop stack => beginRound state loop stack
  | .loopBody loop stack =>
    match flow with
    | .normal => endRound state loop stack
    | .returned value => ⟨state, .flow (.returned value) stack⟩
  | .leaveScope outer stack => ⟨state.leaveScope outer, .flow flow stack⟩
  | .leaveCall caller stack => ⟨state.leaveCall caller, .value flow.result stack⟩

/-- Let a failure pass what waits for a value. -/
def unwindValue (state : State) (failure : Failure) : ValueStack → Config
  | .bottom => ⟨state, .unwindValue failure .bottom⟩
  | .unary _ _ stack
  | .binaryLeft _ _ _ stack
  | .binaryRight _ _ _ stack
  | .logical _ _ stack
  | .assign _ _ stack
  | .callee _ _ stack
  | .argument _ _ _ _ stack => ⟨state, .unwindValue failure stack⟩
  | .discard stack
  | .print _ _ stack
  | .declare _ stack
  | .branch _ _ stack
  | .loopCondition _ stack
  | .loopIncrement _ stack
  | .giveBack stack => ⟨state, .unwindFlow failure stack⟩

/-- Let a failure pass what waits for the end of a statement. -/
def unwindFlow (state : State) (failure : Failure) : FlowStack → Config
  | .bottom => ⟨state, .unwindFlow failure .bottom⟩
  | .sequence _ stack
  | .loopStart _ stack
  | .loopBody _ stack => ⟨state, .unwindFlow failure stack⟩
  | .leaveScope outer stack => ⟨state.leaveScope outer, .unwindFlow failure stack⟩
  | .leaveCall caller stack => ⟨state.leaveCall caller, .unwindValue failure stack⟩

/-- One step.  When everything that was asked for is done, nothing changes any more. -/
def step (config : Config) : Config :=
  match config with
  | ⟨state, focus⟩ =>
    match focus with
    | .evaluate e stack => evaluate state e stack
    | .value value stack => resumeValue state value stack
    | .execute s stack => execute state s stack
    | .executeAll [] stack => ⟨state, .flow .normal stack⟩
    | .executeAll (first :: rest) stack => ⟨state, .execute first (.sequence rest stack)⟩
    | .flow flow stack => resumeFlow state flow stack
    | .unwindValue failure stack => unwindValue state failure stack
    | .unwindFlow failure stack => unwindFlow state failure stack

/-- Whether everything that was asked for is done. -/
def isDone (config : Config) : Bool :=
  match config.focus with
  | .value _ .bottom | .flow _ .bottom | .unwindValue _ .bottom | .unwindFlow _ .bottom => true
  | _ => false

/-- At most so many steps. -/
def run : Nat → Config → Config
  | 0, config => config
  | fuel + 1, config => if config.isDone then config else run fuel config.step

/-- A finished run stays as it is. -/
theorem step_of_isDone {config : Config} (finished : config.isDone = true) :
    config.step = config := by
  obtain ⟨state, focus⟩ := config
  cases focus <;> rename_i stack <;> cases stack <;>
    first
    | rfl
    | exact absurd finished (by simp [isDone])

end Config

end ScopedScript
