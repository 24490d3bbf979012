import ScopedScript.Machine.State
namespace ScopedScript

/-!
# What is left to do

A running program is a `Focus`, which is what happens next together with everything that waits for it, and
a `State`.  What waits is kept in two stacks that refer to each other: a `ValueStack` waits for the value
of an expression and a `FlowStack` for the end of a statement.  A value can therefore never reach
something that waits for a statement, nor the other way round.
-/

/-- How a statement ended: it ran to its end, or a `return` is on its way to the nearest call. -/
inductive Flow where
  | normal
  | returned (value : Value)

/-- The value of a call whose body ended so. -/
def Flow.result : Flow → Value
  | .normal => .nil
  | .returned value => value

/-- A loop under way.  A missing condition holds. -/
structure Loop where
  condition : Option Expr
  increment : Option Expr
  body : Stmt

mutual

/-- What waits for the value of an expression, innermost first. -/
inductive ValueStack where
  /-- The expression was asked for from outside. -/
  | bottom
  | unary (op : UnaryOp) (line : Nat) (below : ValueStack)
  | binaryLeft (op : BinaryOp) (line : Nat) (right : Expr) (below : ValueStack)
  | binaryRight (op : BinaryOp) (line : Nat) (left : Value) (below : ValueStack)
  | logical (op : LogicalOp) (right : Expr) (below : ValueStack)
  | assign (ref : RefId) (target : Identifier) (below : ValueStack)
  | callee (line : Nat) (arguments : List Expr) (below : ValueStack)
  /-- The values of the arguments so far are kept in reverse. -/
  | argument (line : Nat) (callee : Value) (done : List Value) (pending : List Expr)
    (below : ValueStack)
  | discard (below : FlowStack)
  | print (line : Nat) (pending : List Expr) (below : FlowStack)
  | declare (name : String) (below : FlowStack)
  | branch (whenTrue : Stmt) (whenFalse : Option Stmt) (below : FlowStack)
  | loopCondition (loop : Loop) (below : FlowStack)
  | loopIncrement (loop : Loop) (below : FlowStack)
  | giveBack (below : FlowStack)

/-- What waits for the end of a statement, innermost first. -/
inductive FlowStack where
  /-- The statement was asked for from outside. -/
  | bottom
  | sequence (rest : List Stmt) (below : FlowStack)
  | loopStart (loop : Loop) (below : FlowStack)
  | loopBody (loop : Loop) (below : FlowStack)
  /-- The end of a block or a `for`, which makes the outer scope current again. -/
  | leaveScope (outer : ScopeId) (below : FlowStack)
  /-- The end of a call, which makes the caller's scope current again. -/
  | leaveCall (caller : ScopeId) (below : ValueStack)

end

/-- What happens next. -/
inductive Focus where
  | evaluate (e : Expr) (stack : ValueStack)
  | value (value : Value) (stack : ValueStack)
  | execute (s : Stmt) (stack : FlowStack)
  | executeAll (ss : List Stmt) (stack : FlowStack)
  | flow (flow : Flow) (stack : FlowStack)
  | unwindValue (failure : Failure) (stack : ValueStack)
  | unwindFlow (failure : Failure) (stack : FlowStack)

/-- A running program. -/
structure Config where
  state : State
  focus : Focus

end ScopedScript
