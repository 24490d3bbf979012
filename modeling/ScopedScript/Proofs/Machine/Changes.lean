import ScopedScript.Machine.Step
namespace ScopedScript

/-!
# What one step does to the state

A step changes the state in one of nine ways, or not at all.  `State.Becomes` lists them with what the step
has looked at before.  Whatever all of these changes keep is kept by every run, and no other module has to
go through the steps for it.
-/

namespace State

/-- The scope in which an assignment to a reference changes its name. -/
def writeScope (state : State) (ref : RefId) (target : Identifier) : Except Failure ScopeId :=
  match state.distances.find? ref with
  | some distance => (state.heap.ancestor state.scope distance).mapError Failure.defect
  | none =>
    match state.heap.holder? globalScope target.name with
    | some holder => .ok holder
    | none => .error (.runtime ⟨.undefinedVariable target.name, target.line⟩)

/-- An assignment binds the name anew in the scope that it changes, or changes nothing. -/
theorem assign_eq (state : State) (ref : RefId) (target : Identifier) (value : Value) :
    state.assign ref target value =
      match state.writeScope ref target with
      | .ok holder => ({ state with heap := state.heap.define holder target.name value }, .ok ())
      | .error failure => (state, .error failure) := by
  unfold assign writeScope
  cases state.distances.find? ref with
  | some distance =>
      dsimp only [Heap.assignAt]
      cases state.heap.ancestor state.scope distance <;> rfl
  | none =>
      dsimp only [Heap.assign, Heap.assign?]
      cases state.heap.holder? globalScope target.name <;> rfl

end State

/-- What the state can be after one step. -/
inductive State.Becomes (state : State) : State → Prop where
  | same : Becomes state state
  | define (name : String) (value : Value) : Becomes state (state.define name value)
  | defineFunction (name : String) (closure : Closure) (here : closure.scope = state.scope) :
      Becomes state (state.defineFunction name (.closure closure))
  | assign {ref : RefId} {target : Identifier} {holder : ScopeId} (value : Value)
      (found : state.writeScope ref target = .ok holder) :
      Becomes state { state with heap := state.heap.define holder target.name value }
  | tick : Becomes state state.tick
  | enterScope : Becomes state (state.enterScope state.scope)
  | enterCall (closure : Closure) (arguments : List Value)
      (fits : arguments.length = closure.parameters.length) (room : state.isAtCallLimit = false) :
      Becomes state (state.enterCall closure arguments)
  | leaveScope (outer : ScopeId) : Becomes state (state.leaveScope outer)
  | leaveCall (caller : ScopeId) : Becomes state (state.leaveCall caller)
  | writeLine (text : String) : Becomes state (state.writeLine text).1

/-- What no binding of an argument changes is not changed by binding all of them. -/
theorem State.bindParameters_of_define {P : State → Prop} {arguments : List Value}
    (define : ∀ {state : State} (name : String) {value : Value}, value ∈ arguments → P state →
      P (state.define name value)) (parameters : List Identifier) {state : State} (holds : P state) :
    P (state.bindParameters parameters arguments) := by
  induction parameters generalizing state arguments with
  | nil =>
      cases arguments <;> exact holds
  | cons parameter parameters inductionHypothesis =>
      cases arguments with
      | nil => exact holds
      | cons argument arguments =>
          exact inductionHypothesis (fun name _ member => define name (List.mem_cons_of_mem _ member))
            (define parameter.name List.mem_cons_self holds)

namespace Config

variable (state : State) (stack : ValueStack) (below : FlowStack)

theorem state_deliver (line : Nat) (result : Except RuntimeCause Value) :
    (deliver state line result stack).state = state := by
  cases result <;> rfl

theorem state_evaluate (e : Expr) : (evaluate state e stack).state = state := by
  unfold evaluate
  split
  case h_6 => split <;> rfl
  all_goals rfl

theorem becomes_call (line : Nat) (callee : Value) (arguments : List Value) :
    state.Becomes (call state line callee arguments stack).state := by
  unfold call
  split
  · split
    · exact .same
    · rename_i fits
      split
      · exact .same
      · rename_i room
        split
        · split <;> exact .tick
        · exact .enterCall _ _ (Decidable.of_not_not fits) (Bool.not_eq_true _ ▸ room)
  · exact .same

theorem becomes_evaluateArguments (line : Nat) (callee : Value) (done : List Value) (pending : List Expr) :
    state.Becomes (evaluateArguments state line callee done pending stack).state := by
  cases pending with
  | nil => exact becomes_call state stack line callee done.reverse
  | cons next rest => exact .same

theorem state_printNext (line : Nat) (pending : List Expr) :
    (printNext state line pending below).state = state := by
  cases pending <;> rfl

theorem state_print (line : Nat) (value : Value) (pending : List Expr) :
    (print state line value pending below).state = (state.writeLine value.render).1 := by
  unfold print
  split
  next after written =>
    rw [state_printNext]
    exact (congrArg Prod.fst written).symm
  next after written => exact (congrArg Prod.fst written).symm

theorem becomes_print (line : Nat) (value : Value) (pending : List Expr) :
    state.Becomes (print state line value pending below).state := by
  rw [state_print]
  exact .writeLine _

theorem state_chooseBranch (condition : Value) (whenTrue : Stmt) (whenFalse : Option Stmt) :
    (chooseBranch state condition whenTrue whenFalse below).state = state := by
  unfold chooseBranch
  split
  · rfl
  · split <;> rfl

theorem state_beginRound (loop : Loop) : (beginRound state loop below).state = state := by
  unfold beginRound
  split <;> rfl

theorem state_endRound (loop : Loop) : (endRound state loop below).state = state := by
  unfold endRound
  split
  · rfl
  · exact state_beginRound state below loop

theorem becomes_execute (s : Stmt) : state.Becomes (execute state s below).state := by
  cases s with
  | expression value => exact .same
  | print line values =>
      rw [execute, state_printNext]
      exact .same
  | declare target initializer =>
      cases initializer with
      | none => exact .define _ _
      | some value => exact .same
  | block body => exact .enterScope
  | branch condition whenTrue whenFalse => exact .same
  | whileLoop condition body =>
      rw [execute, state_beginRound]
      exact .same
  | forLoop first condition increment body =>
      cases first with
      | none =>
          rw [execute, state_beginRound]
          exact .enterScope
      | some first => exact .enterScope
  | function target parameters body => exact .defineFunction _ _ rfl
  | giveBack line value => cases value <;> exact .same

theorem becomes_resumeValue (value : Value) : state.Becomes (resumeValue state value stack).state := by
  cases stack with
  | unary op line below | binaryRight op line left below =>
      rw [resumeValue, state_deliver]
      exact .same
  | logical op right below =>
      rw [resumeValue]
      split <;> exact .same
  | assign ref target below =>
      rw [resumeValue, state.assign_eq]
      cases found : state.writeScope ref target with
      | ok holder => exact .assign value found
      | error => exact .same
  | callee line arguments below => exact becomes_evaluateArguments state below line value [] arguments
  | argument line callee done pending below =>
      exact becomes_evaluateArguments state below line callee (value :: done) pending
  | print line pending below => exact becomes_print state below line value pending
  | declare name below => exact .define name value
  | branch whenTrue whenFalse below =>
      rw [resumeValue, state_chooseBranch]
      exact .same
  | loopCondition loop below =>
      rw [resumeValue]
      split <;> exact .same
  | loopIncrement loop below =>
      rw [resumeValue, state_beginRound]
      exact .same
  | bottom | binaryLeft | discard | giveBack => exact .same

theorem becomes_resumeFlow (flow : Flow) : state.Becomes (resumeFlow state flow below).state := by
  cases below with
  | bottom => exact .same
  | sequence rest below => cases flow <;> exact .same
  | loopStart loop below =>
      rw [resumeFlow, state_beginRound]
      exact .same
  | loopBody loop below =>
      cases flow with
      | normal =>
          rw [resumeFlow, state_endRound]
          exact .same
      | returned value => exact .same
  | leaveScope outer below => exact .leaveScope outer
  | leaveCall caller below => exact .leaveCall caller

/-- Everything that a step can do to the state. -/
theorem becomes_step (config : Config) : config.state.Becomes config.step.state := by
  rcases config with ⟨state, focus⟩
  cases focus with
  | evaluate e stack =>
      rw [step, state_evaluate]
      exact .same
  | value value stack => exact becomes_resumeValue state stack value
  | execute s below => exact becomes_execute state below s
  | executeAll ss below => cases ss <;> exact .same
  | flow flow below => exact becomes_resumeFlow state below flow
  | unwindValue failure stack => cases stack <;> exact .same
  | unwindFlow failure below =>
      cases below with
      | leaveScope outer below => exact .leaveScope outer
      | leaveCall caller stack => exact .leaveCall caller
      | _ => exact .same

end Config

end ScopedScript
