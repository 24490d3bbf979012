import ScopedScript.Session
namespace ScopedScript

/-!
# Evaluation with cells

This evaluator says what static scoping means.  It has no scopes, no links between them and no recorded
distances.  Around every piece of a program there is an `Env`: either the top level or a finite map from
the local names to their cells.  A declaration makes a new cell and extends the map for what follows it;
a block, a `for` or a call begins with the map of its surroundings and gives its extensions up when it
ends, simply because the evaluator goes on with the map it had before.  A name that is not in the map is
global.

Everything else is shared with the step machine: the values, the operators and builtins, printing and
the limit on active calls.  The fuel bounds the nesting of evaluations, since programs need not end.
-/

namespace Cells

/-- The number of a cell. -/
abbrev CellId := Nat

/-- What is around a piece of a program: the top level, or local names with their cells. -/
inductive Env where
  | topLevel
  | inside (names : Bindings CellId)

namespace Env

/-- The cell of a local name. -/
def find? : Env → String → Option CellId
  | topLevel, _ => none
  | inside names, name => names.find? name

/-- What a block, a `for` or the body of a function begins with. -/
def enter : Env → Env
  | topLevel => inside .empty
  | inside names => inside names

end Env

/-- What survives from one piece of a program to the next. -/
structure Store where
  host : Host := {}
  globals : Bindings Value := .empty
  /-- The contents of the cells. -/
  cells : Array Value := #[]
  /-- The maps that functions have captured.  The `scope` of a closure counts into them. -/
  captured : Array Env := #[]
  /-- The identity of the next function value. -/
  identity : Nat := 0
  sink : Sink := {}

/-- Read the clock. -/
def Store.tick (store : Store) : Store := { store with host := store.host.tick }

/-- How a run ended, or that it ran out of fuel. -/
inductive Outcome (α : Type) where
  | done (result : α)
  | failed (error : RuntimeError)
  | unfinished

/-- Something to be run. -/
def Run (α : Type) : Type := Store → Outcome α × Store

namespace Run

variable {α β : Type}

/-- Give a result at once. -/
def done (result : α) : Run α := fun store => (.done result, store)

/-- Fail. -/
def fail (cause : RuntimeCause) (line : Nat) : Run α := fun store => (.failed ⟨cause, line⟩, store)

/-- Run out of fuel. -/
def outOfFuel : Run α := fun store => (.unfinished, store)

/-- Go on with the result, if there is one. -/
def andThen (first : Run α) (next : α → Run β) : Run β := fun store =>
  match first store with
  | (.done result, store) => next result store
  | (.failed error, store) => (.failed error, store)
  | (.unfinished, store) => (.unfinished, store)

instance : Monad Run where
  pure := done
  bind := andThen

section

variable {γ : Type} {first : Run α} {next : α → Run β} {last : β → Run γ} {store later : Store}

theorem pure_bind (result : α) : (pure result >>= next : Run β) = next result := rfl

theorem bind_assoc : (first >>= next >>= last : Run γ) = first >>= fun result => next result >>= last := by
  funext store
  change (first.andThen next).andThen last store = first.andThen _ store
  unfold andThen
  rcases first store with ⟨outcome, middle⟩
  cases outcome <;> rfl

/-- What comes first gives a result, so that what comes next goes on with it. -/
theorem bind_of_done {result : α} (ran : first store = (.done result, later)) :
    (first >>= next : Run β) store = next result later := by
  change first.andThen next store = _
  rw [andThen, ran]

theorem bind_of_failed {error : RuntimeError} (ran : first store = (.failed error, later)) :
    (first >>= next : Run β) store = (.failed error, later) := by
  change first.andThen next store = _
  rw [andThen, ran]

end

end Run

/-! ## Names -/

/-- Make a cell for a name that is declared here.  At the top level there are none. -/
def declare (env : Env) (name : String) : Run Env := fun store =>
  match env with
  | .topLevel => (.done .topLevel, store)
  | .inside names =>
    (.done (.inside (names.insert name store.cells.size)),
      { store with cells := store.cells.push .nil })

/-- Give a declared name its value. -/
def define (env : Env) (name : String) (value : Value) : Run Unit := fun store =>
  match env.find? name with
  | some cell => (.done (), { store with cells := store.cells.setIfInBounds cell value })
  | none => (.done (), { store with globals := store.globals.insert name value })

/-- The value of a name. -/
def read (env : Env) (target : Identifier) : Run Value := fun store =>
  match env.find? target.name with
  | some cell => (.done (store.cells.getD cell .nil), store)
  | none =>
    match store.globals.find? target.name with
    | some value => (.done value, store)
    | none => (.failed ⟨.undefinedVariable target.name, target.line⟩, store)

/-- Change the value of a name.  A global name must be there already. -/
def write (env : Env) (target : Identifier) (value : Value) : Run Unit := fun store =>
  match env.find? target.name with
  | some cell => (.done (), { store with cells := store.cells.setIfInBounds cell value })
  | none =>
    match store.globals.find? target.name with
    | some _ => (.done (), { store with globals := store.globals.insert target.name value })
    | none => (.failed ⟨.undefinedVariable target.name, target.line⟩, store)

/-- Declare parameters with the arguments as their values, in order. -/
def bindParameters : List Identifier → List Value → Env → Run Env
  | parameter :: parameters, argument :: arguments, env => do
    let env ← declare env parameter.name
    define env parameter.name argument
    bindParameters parameters arguments env
  | _, _, env => return env

/-! ## Functions and printing -/

/-- The value of a new function that captures the map. -/
def close (env : Env) (name : String) (parameters : List Identifier) (body : List Stmt) :
    Run Value := fun store =>
  (.done (.function store.identity (.closure ⟨name, parameters, body, store.captured.size⟩)),
    { store with captured := store.captured.push env, identity := store.identity + 1 })

/-- The map that a function has captured. -/
def capturedBy (closure : Closure) : Run Env := fun store =>
  (.done (store.captured.getD closure.scope .topLevel), store)

/-- The result of an operator or a builtin. -/
def deliver (line : Nat) : Except RuntimeCause Value → Run Value
  | .ok value => Run.done value
  | .error cause => Run.fail cause line

/-- Whether no further call may begin when so many are active. -/
def atLimit (host : Host) (depth : Nat) : Bool :=
  match host.callLimit with
  | some limit => limit ≤ depth
  | none => false

/-- Print a value on a line of its own. -/
def printLine (line : Nat) (value : Value) : Run Unit := fun store =>
  match store.sink.writeLine value.render with
  | (sink, true) => (.done (), { store with sink })
  | (sink, false) => (.failed ⟨.output Sink.fullReason, line⟩, { store with sink })

/-! ## Evaluation, given how parts are evaluated -/

/-- Evaluate expressions in order. -/
def evaluateAll (evaluate : Expr → Run Value) : List Expr → Run (List Value)
  | [] => return []
  | first :: rest => do
    let value ← evaluate first
    let values ← evaluateAll evaluate rest
    return value :: values

/-- Evaluate and print expressions in order. -/
def printAll (evaluate : Expr → Run Value) (line : Nat) : List Expr → Run Unit
  | [] => return ()
  | first :: rest => do
    let value ← evaluate first
    printLine line value
    printAll evaluate line rest

/-- The value of an expression that may be absent, which then is `nil`. -/
def evaluate? (evaluate : Expr → Run Value) : Option Expr → Run Value
  | none => return .nil
  | some e => evaluate e

/-- Execute statements in order, each with the map that those before it have left. -/
def executeAll (execute : Env → Stmt → Run (Flow × Env)) (env : Env) : List Stmt → Run Flow
  | [] => return .normal
  | first :: rest => do
    let (flow, env) ← execute env first
    match flow with
    | .normal => executeAll execute env rest
    | .returned value => return .returned value

/-- Call a value when so many calls are active. -/
def call (execute : Env → Stmt → Run (Flow × Env)) (depth line : Nat) (callee : Value)
    (arguments : List Value) : Run Value := fun store =>
  match callee with
  | .function _ callable =>
    if arguments.length ≠ callable.arity then
      Run.fail (.arity callable.arity arguments.length) line store
    else if atLimit store.host depth then Run.fail .stackOverflow line store
    else
      match callable with
      | .builtin builtin =>
        match builtin.apply store.host.reading arguments with
        | .ok value => Run.done value store.tick
        | .error message => Run.fail (.builtin message) line store.tick
      | .closure closure =>
        (do
          let env ← capturedBy closure
          let env ← bindParameters closure.parameters arguments env.enter
          let flow ← executeAll execute env closure.body
          return flow.result) store
  | _ => Run.fail .notCallable line store

/-- The map that the initializer of a `for` leaves.  How it ended does not matter. -/
def openLoop (execute : Env → Stmt → Run (Flow × Env)) (env : Env) : Option Stmt → Run Env
  | none => return env
  | some first => do
    let (_, env) ← execute env first
    return env

/-- Whether a loop goes on.  A missing condition holds. -/
def goesOn (evaluate : Expr → Run Value) : Option Expr → Run Bool
  | none => return true
  | some condition => do
    let value ← evaluate condition
    return value.isTruthy

/-- Evaluate the increment of a loop, when there is one. -/
def advance (evaluate : Expr → Run Value) : Option Expr → Run Unit
  | none => return ()
  | some increment => do
    let _ ← evaluate increment
    return ()

/-- One round of a loop, and those after it. -/
def round (evaluate : Expr → Run Value) (execute : Stmt → Run (Flow × Env)) (again : Run Flow)
    (loop : Loop) : Run Flow := do
  let goOn ← goesOn evaluate loop.condition
  if goOn then
    let (flow, _) ← execute loop.body
    match flow with
    | .returned value => return .returned value
    | .normal => do
      advance evaluate loop.increment
      again
  else return .normal

/-! ## Evaluation -/

mutual

/-- Evaluate an expression. -/
def evaluate (fuel depth : Nat) (env : Env) (e : Expr) : Run Value :=
  match fuel with
  | 0 => Run.outOfFuel
  | fuel + 1 =>
    match e with
    | .constant value => return .ofConstant value
    | .group inner => evaluate fuel depth env inner
    | .unary op line operand => do
      let value ← evaluate fuel depth env operand
      deliver line (op.apply value)
    | .binary op line left right => do
      let left ← evaluate fuel depth env left
      let right ← evaluate fuel depth env right
      deliver line (op.apply left right)
    | .logical op left right => do
      let left ← evaluate fuel depth env left
      if op.isDecidedBy left then return left else evaluate fuel depth env right
    | .variable _ target => read env target
    | .assign _ target value => do
      let value ← evaluate fuel depth env value
      write env target value
      return value
    | .call callee line arguments => do
      let callee ← evaluate fuel depth env callee
      let values ← evaluateAll (evaluate fuel depth env) arguments
      call (execute fuel (depth + 1)) depth line callee values

/-- Execute a statement.  Besides its flow it leaves the map for what follows. -/
def execute (fuel depth : Nat) (env : Env) (s : Stmt) : Run (Flow × Env) :=
  match fuel with
  | 0 => Run.outOfFuel
  | fuel + 1 =>
    match s with
    | .expression value => do
      let _ ← evaluate fuel depth env value
      return (.normal, env)
    | .print line values => do
      printAll (evaluate fuel depth env) line values
      return (.normal, env)
    | .declare target initializer => do
      let env ← declare env target.name
      let value ← evaluate? (evaluate fuel depth env) initializer
      define env target.name value
      return (.normal, env)
    | .block body => do
      let flow ← executeAll (execute fuel depth) env.enter body
      return (flow, env)
    | .branch condition whenTrue whenFalse => do
      let value ← evaluate fuel depth env condition
      if value.isTruthy then execute fuel depth env whenTrue
      else
        match whenFalse with
        | some other => execute fuel depth env other
        | none => return (.normal, env)
    | .whileLoop condition body => do
      let whole := ⟨some condition, none, body⟩
      let flow ← round (evaluate fuel depth env) (execute fuel depth env) (loop fuel depth env whole)
        whole
      return (flow, env)
    | .forLoop first condition increment body => do
      let whole := ⟨condition, increment, body⟩
      let inner ← openLoop (execute fuel depth) env.enter first
      let flow ← round (evaluate fuel depth inner) (execute fuel depth inner)
        (loop fuel depth inner whole) whole
      return (flow, env)
    | .function target parameters body => do
      let env ← declare env target.name
      let value ← close env target.name parameters body
      define env target.name value
      return (.normal, env)
    | .giveBack _ value => do
      let value ← evaluate? (evaluate fuel depth env) value
      return (.returned value, env)

/-- The rounds of a loop. -/
def loop (fuel depth : Nat) (env : Env) (whole : Loop) : Run Flow :=
  match fuel with
  | 0 => Run.outOfFuel
  | fuel + 1 =>
    round (evaluate fuel depth env) (execute fuel depth env) (loop fuel depth env whole) whole

end

/-! Without fuel nothing is begun. -/

theorem evaluate_zero (depth : Nat) (env : Env) (e : Expr) : evaluate 0 depth env e = Run.outOfFuel := by
  rw [evaluate]

theorem execute_zero (depth : Nat) (env : Env) (s : Stmt) : execute 0 depth env s = Run.outOfFuel := by
  rw [execute]

theorem loop_zero (depth : Nat) (env : Env) (whole : Loop) : loop 0 depth env whole = Run.outOfFuel := by
  rw [loop]

end Cells

end ScopedScript
