import ScopedScript.Machine.Step
namespace ScopedScript

/-!
# Whole runs

An expression, a statement or a program is run from a state for at most so many steps.  The ending says
how the run ended, or that it has not ended yet.
-/

/-- How a run ended. -/
inductive Ending (α : Type) where
  | done (result : α)
  | failed (failure : Failure)
  | unfinished

namespace State

/-- The state before anything has run: the global scope with the given builtins. -/
def initial (host : Host) (sink : Sink) (builtins : List Builtin) : State :=
  let fresh : State := { host, sink, heap := Heap.empty.create none, scope := globalScope }
  builtins.foldl (fun state builtin => state.defineFunction builtin.name (.builtin builtin)) fresh

/-- The value of a global name, asked for from outside any program. -/
def global (state : State) (name : String) (line : Nat) : Except RuntimeError Value :=
  state.heap.get globalScope ⟨name, line⟩

end State

namespace Config

/-- The ending of a run that was to evaluate an expression. -/
def valueEnding (config : Config) : Ending Value :=
  match config.focus with
  | .value value .bottom => .done value
  | .unwindValue failure .bottom => .failed failure
  | _ => .unfinished

/-- The ending of a run that was to execute statements. -/
def flowEnding (config : Config) : Ending Flow :=
  match config.focus with
  | .flow flow .bottom => .done flow
  | .unwindFlow failure .bottom => .failed failure
  | _ => .unfinished

end Config

namespace State

/-- Evaluate an expression in the current scope. -/
def evaluate (fuel : Nat) (state : State) (e : Expr) : State × Ending Value :=
  let config := Config.run fuel ⟨state, .evaluate e .bottom⟩
  (config.state, config.valueEnding)

/-- Execute a statement in the current scope. -/
def execute (fuel : Nat) (state : State) (s : Stmt) : State × Ending Flow :=
  let config := Config.run fuel ⟨state, .execute s .bottom⟩
  (config.state, config.flowEnding)

/-- A program about to run. -/
def launch (state : State) (program : List Stmt) : Config := ⟨state, .executeAll program .bottom⟩

/-- Flush the sink after a program.  A failure of the program itself comes before one of the flush. -/
def flushed (state : State) : Ending Flow → Ending Unit
  | .done _ =>
    if state.sink.flushFails then .failed (.runtime ⟨.output Sink.flushReason, 0⟩) else .done ()
  | .failed failure => .failed failure
  | .unfinished => .unfinished

/-- Execute a program and flush the sink. -/
def interpret (fuel : Nat) (state : State) (program : List Stmt) : State × Ending Unit :=
  let config := Config.run fuel (state.launch program)
  (config.state, config.state.flushed config.flowEnding)

end State

end ScopedScript
