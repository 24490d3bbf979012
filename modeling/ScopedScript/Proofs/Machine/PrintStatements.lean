import Mathlib.Logic.Function.Iterate
import ScopedScript.Machine.Step
namespace ScopedScript

/-!
# Whose values are printed

A value that is to be printed belongs to a `print` statement whose execution has begun before, and the line
with which it waits is the line of that statement.  For only the execution of a statement puts something on
the stack that prints, and afterwards it is there with the same line until the statement ends.
-/

section Began

variable (began : Nat → FlowStack → Prop)

mutual

/-- Whatever waits to print does so for one of the given lines, each with what waits below it. -/
def ValueStack.Prints : ValueStack → Prop
  | .bottom => True
  | .unary _ _ below | .binaryLeft _ _ _ below | .binaryRight _ _ _ below | .logical _ _ below
  | .assign _ _ below | .callee _ _ below | .argument _ _ _ _ below => below.Prints
  | .print line _ below => began line below ∧ below.Prints
  | .discard below | .declare _ below | .branch _ _ below | .loopCondition _ below | .loopIncrement _ below
  | .giveBack below => below.Prints

/-- Whatever waits to print does so for one of the given lines, each with what waits below it. -/
def FlowStack.Prints : FlowStack → Prop
  | .bottom => True
  | .sequence _ below | .loopStart _ below | .loopBody _ below | .leaveScope _ below => below.Prints
  | .leaveCall _ below => below.Prints

end

/-- Whatever waits to print does so for one of the given lines, each with what waits below it. -/
def Focus.Prints : Focus → Prop
  | .evaluate _ stack | .value _ stack | .unwindValue _ stack => stack.Prints began
  | .execute _ below | .executeAll _ below | .flow _ below | .unwindFlow _ below => below.Prints began

end Began

namespace Config

variable {began : Nat → FlowStack → Prop} {state : State} {stack : ValueStack} {below : FlowStack}

theorem prints_deliver (prints : stack.Prints began) (line : Nat) (result : Except RuntimeCause Value) :
    (deliver state line result stack).focus.Prints began := by
  cases result <;> exact prints

theorem prints_evaluate (prints : stack.Prints began) (e : Expr) :
    (evaluate state e stack).focus.Prints began := by
  unfold evaluate
  split
  case h_6 => split <;> exact prints
  all_goals exact prints

theorem prints_call (prints : stack.Prints began) (line : Nat) (callee : Value) (arguments : List Value) :
    (call state line callee arguments stack).focus.Prints began := by
  unfold call
  split
  · split
    · exact prints
    · split
      · exact prints
      · split
        · split <;> exact prints
        · exact prints
  · exact prints

theorem prints_evaluateArguments (prints : stack.Prints began) (line : Nat) (callee : Value)
    (done : List Value) (pending : List Expr) :
    (evaluateArguments state line callee done pending stack).focus.Prints began := by
  cases pending with
  | nil => exact prints_call prints line callee done.reverse
  | cons next rest => exact prints

theorem prints_printNext {line : Nat} (here : began line below) (prints : below.Prints began)
    (pending : List Expr) : (printNext state line pending below).focus.Prints began := by
  cases pending with
  | nil => exact prints
  | cons next rest => exact ⟨here, prints⟩

theorem prints_print {line : Nat} (here : began line below) (prints : below.Prints began) (value : Value)
    (pending : List Expr) : (print state line value pending below).focus.Prints began := by
  unfold print
  split
  · exact prints_printNext here prints pending
  · exact prints

theorem prints_chooseBranch (prints : below.Prints began) (condition : Value) (whenTrue : Stmt)
    (whenFalse : Option Stmt) : (chooseBranch state condition whenTrue whenFalse below).focus.Prints began := by
  unfold chooseBranch
  split
  · exact prints
  · split <;> exact prints

theorem prints_beginRound (prints : below.Prints began) (loop : Loop) :
    (beginRound state loop below).focus.Prints began := by
  unfold beginRound
  split <;> exact prints

theorem prints_endRound (prints : below.Prints began) (loop : Loop) :
    (endRound state loop below).focus.Prints began := by
  unfold endRound
  split
  · exact prints
  · exact prints_beginRound prints loop

theorem prints_execute {s : Stmt} (begins : ∀ line values, s = .print line values → began line below)
    (prints : below.Prints began) : (execute state s below).focus.Prints began := by
  cases s with
  | print line values => exact prints_printNext (begins line values rfl) prints values
  | declare target initializer => cases initializer <;> exact prints
  | whileLoop condition body => exact prints_beginRound prints _
  | forLoop first condition increment body =>
      cases first with
      | none =>
          have inside : (FlowStack.leaveScope state.scope below).Prints began := prints
          exact prints_beginRound inside _
      | some first => exact prints
  | giveBack line value => cases value <;> exact prints
  | expression | block | branch | function => exact prints

theorem prints_resumeValue (prints : stack.Prints began) (value : Value) :
    (resumeValue state value stack).focus.Prints began := by
  cases stack with
  | unary op line below | binaryRight op line left below =>
      have inner : below.Prints began := prints
      exact prints_deliver inner line _
  | logical op right below =>
      rw [resumeValue]
      split <;> exact prints
  | assign ref target below =>
      rw [resumeValue]
      split <;> exact prints
  | callee line arguments below | argument line callee done pending below =>
      have inner : below.Prints began := prints
      exact prints_evaluateArguments inner line _ _ _
  | print line pending below => exact prints_print prints.1 prints.2 value pending
  | branch whenTrue whenFalse below =>
      have inner : below.Prints began := prints
      exact prints_chooseBranch inner value whenTrue whenFalse
  | loopCondition loop below =>
      rw [resumeValue]
      split <;> exact prints
  | loopIncrement loop below =>
      have inner : below.Prints began := prints
      exact prints_beginRound inner loop
  | bottom | binaryLeft | discard | declare | giveBack => exact prints

theorem prints_resumeFlow (prints : below.Prints began) (flow : Flow) :
    (resumeFlow state flow below).focus.Prints began := by
  cases below with
  | sequence rest below => cases flow <;> exact prints
  | loopStart loop below =>
      have inner : below.Prints began := prints
      exact prints_beginRound inner loop
  | loopBody loop below =>
      have inner : below.Prints began := prints
      cases flow with
      | normal => exact prints_endRound inner loop
      | returned value => exact prints
  | bottom | leaveScope | leaveCall => exact prints

theorem prints_unwindValue (prints : stack.Prints began) (failure : Failure) :
    (unwindValue state failure stack).focus.Prints began := by
  cases stack with
  | print line pending below => exact prints.2
  | _ => exact prints

variable {config : Config}

/-- A step lets nothing print but what has waited to before, or the statement that it begins to execute. -/
theorem prints_step (prints : config.focus.Prints began)
    (begins : ∀ line values below, config.focus = .execute (.print line values) below → began line below) :
    config.step.focus.Prints began := by
  rcases config with ⟨state, focus⟩
  cases focus with
  | evaluate e stack => exact prints_evaluate prints e
  | value value stack => exact prints_resumeValue prints value
  | execute s below =>
      refine prints_execute (fun line values same => ?_) prints
      exact begins line values below (congrArg (Focus.execute · below) same)
  | executeAll ss below => cases ss <;> exact prints
  | flow flow below => exact prints_resumeFlow prints flow
  | unwindValue failure stack => exact prints_unwindValue prints failure
  | unwindFlow failure below => cases below <;> exact prints

/-- What waits to print in a run that began without is a `print` that the run has begun to execute. -/
theorem prints_iterate_step (nothing : config.focus.Prints began) {n : Nat}
    (begins : ∀ m < n, ∀ line values below,
      (step^[m] config).focus = .execute (.print line values) below → began line below) :
    (step^[n] config).focus.Prints began := by
  induction n with
  | zero => exact nothing
  | succ n inductionHypothesis =>
      rw [Function.iterate_succ_apply']
      refine prints_step (inductionHypothesis fun m earlier => ?_) (begins n (Nat.lt_succ_self n))
      exact begins m (Nat.lt_succ_of_lt earlier)

/-- In a run that begins without anything that waits to print, a value that is about to be printed belongs to a
`print` statement with its line. -/
theorem exists_print_statement {n line : Nat} {value : Value} {pending : List Expr} {below : FlowStack}
    (nothing : ∀ began, config.focus.Prints began)
    (printing : (step^[n] config).focus = .value value (.print line pending below)) :
    ∃ m < n, ∃ values, (step^[m] config).focus = .execute (.print line values) below := by
  let executed (line : Nat) (below : FlowStack) : Prop :=
    ∃ m < n, ∃ values, (step^[m] config).focus = .execute (.print line values) below
  have prints : (step^[n] config).focus.Prints executed :=
    prints_iterate_step (nothing executed) fun m earlier _ values _ executes => ⟨m, earlier, values, executes⟩
  rw [printing] at prints
  exact prints.1

end Config

end ScopedScript
