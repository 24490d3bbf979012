import ScopedScript.Proofs.Machine.Locations
namespace ScopedScript

/-!
# How many calls are active

A call is active from the step that begins it until the step that comes back to its caller, so it is one of
the ends of calls that wait on the stack; a builtin is active only during the step that calls it.  The state
counts calls up and down instead.  The two agree at every step of a run, and with a limit the count does not
get past it.
-/

mutual

/-- How many of those who wait for a value, or behind one who does, are ends of calls. -/
def ValueStack.calls : ValueStack → Nat
  | .bottom => 0
  | .unary _ _ below | .binaryLeft _ _ _ below | .binaryRight _ _ _ below | .logical _ _ below
  | .assign _ _ below | .callee _ _ below | .argument _ _ _ _ below => below.calls
  | .discard below | .print _ _ below | .declare _ below | .branch _ _ below | .loopCondition _ below
  | .loopIncrement _ below | .giveBack below => below.calls

/-- How many of those who wait for the end of a statement, or behind one who does, are ends of calls. -/
def FlowStack.calls : FlowStack → Nat
  | .bottom => 0
  | .sequence _ below | .loopStart _ below | .loopBody _ below | .leaveScope _ below => below.calls
  | .leaveCall _ below => below.calls + 1

end

/-- How many ends of calls wait. -/
def Waiting.calls : Waiting → Nat
  | .value stack => stack.calls
  | .flow below => below.calls

/-- Whether a value can be called with so many arguments. -/
def Value.takes (count : Nat) : Value → Bool
  | .function _ callable => count == callable.arity
  | _ => false

namespace Config

/-- How many calls are active. -/
def calls (config : Config) : Nat := config.focus.waiting.calls

/-- The line of the call that the next step makes if there is room for it: all arguments are there, and the
callee is a function that takes as many. -/
def calling? (config : Config) : Option Nat :=
  match config.focus with
  | .value callee (.callee line [] _) => if callee.takes 0 then some line else none
  | .value _ (.argument line callee done [] _) =>
    if callee.takes (done.length + 1) then some line else none
  | _ => none

/-- How many calls are active when the call that the next step would make is counted with the others. -/
def demand (config : Config) : Nat := config.calls + if config.calling?.isSome then 1 else 0

/-- The state has counted the calls that are active. -/
def Counted (config : Config) : Prop := config.state.depth = config.calls

variable {state : State} {stack : ValueStack} {below : FlowStack}

/-! ## A step and the count -/

theorem counted_deliver (counted : state.depth = stack.calls) (line : Nat)
    (result : Except RuntimeCause Value) : (deliver state line result stack).Counted := by
  cases result <;> exact counted

theorem counted_evaluate (counted : state.depth = stack.calls) (e : Expr) :
    (evaluate state e stack).Counted := by
  unfold evaluate
  split
  case h_6 => split <;> exact counted
  all_goals exact counted

theorem counted_call (counted : state.depth = stack.calls) (line : Nat) (callee : Value)
    (arguments : List Value) : (call state line callee arguments stack).Counted := by
  unfold call
  split
  · split
    · exact counted
    · split
      · exact counted
      · split
        · split <;> exact counted
        · rename_i closure _
          -- One more end of a call waits, and the count has gone up by one.
          have deeper := congrArg Location.depth (state.location_enterCall closure arguments)
          exact deeper.trans (congrArg (· + 1) counted)
  · exact counted

theorem counted_evaluateArguments (counted : state.depth = stack.calls) (line : Nat) (callee : Value)
    (done : List Value) (pending : List Expr) :
    (evaluateArguments state line callee done pending stack).Counted := by
  cases pending with
  | nil => exact counted_call counted line callee done.reverse
  | cons next rest => exact counted

theorem counted_printNext (counted : state.depth = below.calls) (line : Nat) (pending : List Expr) :
    (printNext state line pending below).Counted := by
  cases pending <;> exact counted

theorem counted_print (counted : state.depth = below.calls) (line : Nat) (value : Value)
    (pending : List Expr) : (print state line value pending below).Counted := by
  unfold print
  split
  next written =>
    have same := congrArg Location.depth (State.location_of_writeLine written)
    exact counted_printNext (same.trans counted) line pending
  next written =>
    have same := congrArg Location.depth (State.location_of_writeLine written)
    exact same.trans counted

theorem counted_chooseBranch (counted : state.depth = below.calls) (condition : Value) (whenTrue : Stmt)
    (whenFalse : Option Stmt) : (chooseBranch state condition whenTrue whenFalse below).Counted := by
  unfold chooseBranch
  split
  · exact counted
  · split <;> exact counted

theorem counted_beginRound (counted : state.depth = below.calls) (loop : Loop) :
    (beginRound state loop below).Counted := by
  unfold beginRound
  split <;> exact counted

theorem counted_endRound (counted : state.depth = below.calls) (loop : Loop) :
    (endRound state loop below).Counted := by
  unfold endRound
  split
  · exact counted
  · exact counted_beginRound counted loop

theorem counted_execute (counted : state.depth = below.calls) (s : Stmt) :
    (execute state s below).Counted := by
  cases s with
  | print line values => exact counted_printNext counted line values
  | declare target initializer => cases initializer <;> exact counted
  | whileLoop condition body => exact counted_beginRound counted _
  | forLoop first condition increment body =>
      have inside : (state.enterScope state.scope).depth = (FlowStack.leaveScope state.scope below).calls :=
        counted
      cases first with
      | none => exact counted_beginRound inside _
      | some first => exact counted
  | giveBack line value => cases value <;> exact counted
  | expression | block | branch | function => exact counted

theorem counted_resumeValue (counted : state.depth = stack.calls) (value : Value) :
    (resumeValue state value stack).Counted := by
  cases stack with
  | unary op line below | binaryRight op line left below =>
      have inner : state.depth = below.calls := counted
      exact counted_deliver inner line _
  | logical op right below =>
      rw [resumeValue]
      split <;> exact counted
  | assign ref target below =>
      rw [resumeValue, state.assign_eq]
      cases state.writeScope ref target <;> exact counted
  | callee line arguments below | argument line callee done pending below =>
      have inner : state.depth = below.calls := counted
      exact counted_evaluateArguments inner line _ _ _
  | print line pending below => exact counted_print counted line value pending
  | branch whenTrue whenFalse below => exact counted_chooseBranch counted value whenTrue whenFalse
  | loopCondition loop below =>
      rw [resumeValue]
      split <;> exact counted
  | loopIncrement loop below => exact counted_beginRound counted loop
  | bottom | binaryLeft | discard | declare | giveBack => exact counted

theorem counted_resumeFlow (counted : state.depth = below.calls) (flow : Flow) :
    (resumeFlow state flow below).Counted := by
  cases below with
  | sequence rest below => cases flow <;> exact counted
  | loopStart loop below =>
      have inner : state.depth = below.calls := counted
      exact counted_beginRound inner loop
  | loopBody loop below =>
      have inner : state.depth = below.calls := counted
      cases flow with
      | normal => exact counted_endRound inner loop
      | returned value => exact inner
  | leaveCall caller stack =>
      have deeper : state.depth = stack.calls + 1 := counted
      exact (congrArg Nat.pred deeper : state.depth - 1 = stack.calls)
  | bottom | leaveScope => exact counted

theorem counted_unwindFlow (counted : state.depth = below.calls) (failure : Failure) :
    (unwindFlow state failure below).Counted := by
  cases below with
  | leaveCall caller stack =>
      have deeper : state.depth = stack.calls + 1 := counted
      exact (congrArg Nat.pred deeper : state.depth - 1 = stack.calls)
  | bottom | sequence | loopStart | loopBody | leaveScope => exact counted

/-- A step keeps the count right. -/
theorem counted_step {config : Config} (counted : config.Counted) : config.step.Counted := by
  rcases config with ⟨state, focus⟩
  cases focus with
  | evaluate e stack => exact counted_evaluate counted e
  | value value stack => exact counted_resumeValue counted value
  | execute s below => exact counted_execute counted s
  | executeAll ss below => cases ss <;> exact counted
  | flow flow below => exact counted_resumeFlow counted flow
  | unwindValue failure stack => cases stack <;> exact counted
  | unwindFlow failure below => exact counted_unwindFlow counted failure

theorem counted_iterate_step {config : Config} (counted : config.Counted) (n : Nat) :
    (step^[n] config).Counted := by
  induction n with
  | zero => exact counted
  | succ n inductionHypothesis =>
      rw [Function.iterate_succ_apply']
      exact counted_step inductionHypothesis

end Config

/-! ## The limit -/

/-- The limit is the same after a step. -/
theorem State.Becomes.callLimit {state after : State} (becomes : state.Becomes after) :
    after.host.callLimit = state.host.callLimit := by
  cases becomes with
  | enterCall closure arguments =>
      exact bindParameters_of_define (P := fun after => after.host.callLimit = state.host.callLimit)
        (fun _ _ _ holds => holds) closure.parameters rfl
  | _ => rfl

theorem State.isAtCallLimit_eq_decide {state : State} {limit : Nat}
    (limited : state.host.callLimit = some limit) : state.isAtCallLimit = decide (limit ≤ state.depth) := by
  rw [isAtCallLimit, limited]

/-- No step counts past the limit. -/
theorem State.Becomes.depth_le {state after : State} {limit : Nat} (becomes : state.Becomes after)
    (limited : state.host.callLimit = some limit) (within : state.depth ≤ limit) : after.depth ≤ limit := by
  cases becomes with
  | enterCall closure arguments fits room =>
      rw [isAtCallLimit_eq_decide limited, decide_eq_false_iff_not, Nat.not_le] at room
      have deeper := congrArg Location.depth (state.location_enterCall closure arguments)
      exact Nat.le_trans (Nat.le_of_eq deeper) room
  | leaveCall caller => exact Nat.le_trans (Nat.sub_le ..) within
  | same | define | defineFunction | assign | tick | enterScope | leaveScope | writeLine => exact within

namespace Config

variable {config : Config} {limit : Nat}

theorem callLimit_iterate_step (config : Config) (n : Nat) :
    (step^[n] config).state.host.callLimit = config.state.host.callLimit := by
  induction n with
  | zero => rfl
  | succ n inductionHypothesis =>
      rw [Function.iterate_succ_apply', (becomes_step _).callLimit]
      exact inductionHypothesis

/-- With a limit, no more calls than that are ever active. -/
theorem calls_iterate_step_le (limited : config.state.host.callLimit = some limit)
    (counted : config.Counted) (within : config.calls ≤ limit) (n : Nat) :
    (step^[n] config).calls ≤ limit := by
  rw [← counted] at within
  rw [← counted_iterate_step counted n]
  induction n with
  | zero => exact within
  | succ n inductionHypothesis =>
      rw [Function.iterate_succ_apply']
      refine (becomes_step _).depth_le ?_ inductionHypothesis
      rw [callLimit_iterate_step]
      exact limited

end Config

end ScopedScript
