import ScopedScript.Proofs.Grammar.ExpressionRules
import ScopedScript.Proofs.Machine.Runs
import ScopedScript.Scope.Resolution
namespace ScopedScript

/-!
# Where a `return` may go

The scope analysis rejects a `return` outside of functions, and the machine looks for the nearest call when
one is on its way.  So in a run of an accepted program a `return` never gets past the calls, and a program
that ends does so by running to its end: `flow_normal_of_resolved`.

The invariant is that wherever code with a `return` is still to be executed, a call is waiting below.
-/

namespace Stmt

mutual

/-- Whether a statement has a `return` that is not in a function declared there. -/
def returns : Stmt → Bool
  | .expression _ | .print _ _ | .declare _ _ | .function _ _ _ => false
  | .block body => returnsAny body
  | .branch _ whenTrue whenFalse => whenTrue.returns || returns? whenFalse
  | .whileLoop _ body => body.returns
  | .forLoop initializer _ _ body => returns? initializer || body.returns
  | .giveBack _ _ => true

/-- Whether one of several statements has a `return` that is not in a function declared there. -/
def returnsAny : List Stmt → Bool
  | [] => false
  | first :: rest => first.returns || returnsAny rest

/-- Whether a statement that may be absent has a `return` that is not in a function declared there. -/
def returns? : Option Stmt → Bool
  | none => false
  | some s => s.returns

end

end Stmt

/-! ## The scope analysis -/

namespace Resolution

mutual

theorem returns_of_walked : ∀ (s : Stmt) {walk after : Walk},
    ofStmt false s walk = .ok after → s.returns = false
  | .expression _, _, _, _ | .print _ _, _, _, _ | .declare _ _, _, _, _ | .function _ _ _, _, _, _ => rfl
  | .block body, _, _, walked => by
      rcases bind_eq_ok.mp walked with ⟨_, inner, _⟩
      exact returnsAny_of_walked body inner
  | .branch _ whenTrue whenFalse, _, _, walked => by
      rcases bind_eq_ok.mp walked with ⟨_, _, walked⟩
      rcases bind_eq_ok.mp walked with ⟨_, trueWalked, falseWalked⟩
      rw [Stmt.returns, returns_of_walked whenTrue trueWalked, returns?_of_walked whenFalse falseWalked]
      rfl
  | .whileLoop _ body, _, _, walked => by
      rcases bind_eq_ok.mp walked with ⟨_, _, bodyWalked⟩
      exact returns_of_walked body bodyWalked
  | .forLoop initializer _ _ body, _, _, walked => by
      rcases bind_eq_ok.mp walked with ⟨_, firstWalked, walked⟩
      rcases bind_eq_ok.mp walked with ⟨_, _, walked⟩
      rcases bind_eq_ok.mp walked with ⟨_, _, walked⟩
      rcases bind_eq_ok.mp walked with ⟨_, bodyWalked, _⟩
      rw [Stmt.returns, returns?_of_walked initializer firstWalked, returns_of_walked body bodyWalked]
      rfl
  | .giveBack _ _, _, _, walked => nomatch walked

theorem returnsAny_of_walked : ∀ (ss : List Stmt) {walk after : Walk},
    ofStmts false ss walk = .ok after → Stmt.returnsAny ss = false
  | [], _, _, _ => rfl
  | first :: rest, _, _, walked => by
      rcases bind_eq_ok.mp walked with ⟨_, firstWalked, restWalked⟩
      rw [Stmt.returnsAny, returns_of_walked first firstWalked, returnsAny_of_walked rest restWalked]
      rfl

theorem returns?_of_walked : ∀ (s : Option Stmt) {walk after : Walk},
    ofStmt? false s walk = .ok after → Stmt.returns? s = false
  | none, _, _, _ => rfl
  | some s, _, _, walked => returns_of_walked s walked

end

end Resolution

/-- A program that the scope analysis accepts has no `return` at its top level. -/
theorem returnsAny_of_resolved {program : List Stmt} {references : List Reference}
    (resolved : resolve program = .ok references) : Stmt.returnsAny program = false := by
  rcases bind_eq_ok.mp resolved with ⟨_, walked, _⟩
  exact Resolution.returnsAny_of_walked program walked

/-! ## The machine -/

/-- Whether a `return` finds a call below. -/
def FlowStack.inCall : FlowStack → Bool
  | .bottom => false
  | .sequence _ below | .loopStart _ below | .loopBody _ below | .leaveScope _ below => below.inCall
  | .leaveCall _ _ => true

mutual

/-- Code that waits has a `return` only where a call is below. -/
def ValueStack.Contained : ValueStack → Prop
  | .bottom => True
  | .unary _ _ below | .binaryLeft _ _ _ below | .binaryRight _ _ _ below | .logical _ _ below
  | .assign _ _ below | .callee _ _ below | .argument _ _ _ _ below => below.Contained
  | .discard below | .print _ _ below | .declare _ below => below.Contained
  | .branch whenTrue whenFalse below =>
    (whenTrue.returns || Stmt.returns? whenFalse → below.inCall) ∧ below.Contained
  | .loopCondition loop below | .loopIncrement loop below =>
    (loop.body.returns → below.inCall) ∧ below.Contained
  | .giveBack below => below.inCall ∧ below.Contained

/-- Code that waits has a `return` only where a call is below. -/
def FlowStack.Contained : FlowStack → Prop
  | .bottom => True
  | .sequence rest below => (Stmt.returnsAny rest → below.inCall) ∧ below.Contained
  | .loopStart loop below | .loopBody loop below => (loop.body.returns → below.inCall) ∧ below.Contained
  | .leaveScope _ below => below.Contained
  | .leaveCall _ below => below.Contained

end

/-- A `return` happens only where a call is below, and so does what may lead to one. -/
def Focus.Contained : Focus → Prop
  | .evaluate _ stack | .value _ stack | .unwindValue _ stack => stack.Contained
  | .execute s below => (s.returns → below.inCall) ∧ below.Contained
  | .executeAll ss below => (Stmt.returnsAny ss → below.inCall) ∧ below.Contained
  | .flow .normal below | .unwindFlow _ below => below.Contained
  | .flow (.returned _) below => below.inCall ∧ below.Contained

namespace Config

variable {state : State} {stack : ValueStack} {below : FlowStack}

theorem contained_deliver (contained : stack.Contained) (line : Nat) (result : Except RuntimeCause Value) :
    (deliver state line result stack).focus.Contained := by
  cases result <;> exact contained

theorem contained_evaluate (contained : stack.Contained) (e : Expr) :
    (evaluate state e stack).focus.Contained := by
  unfold evaluate
  split
  case h_6 => split <;> exact contained
  all_goals exact contained

theorem contained_call (contained : stack.Contained) (line : Nat) (callee : Value)
    (arguments : List Value) : (call state line callee arguments stack).focus.Contained := by
  unfold call
  split
  · split
    · exact contained
    · split
      · exact contained
      · split
        · split <;> exact contained
        · exact ⟨fun _ => rfl, contained⟩
  · exact contained

theorem contained_evaluateArguments (contained : stack.Contained) (line : Nat) (callee : Value)
    (done : List Value) (pending : List Expr) :
    (evaluateArguments state line callee done pending stack).focus.Contained := by
  cases pending with
  | nil => exact contained_call contained line callee done.reverse
  | cons next rest => exact contained

theorem contained_printNext (contained : below.Contained) (line : Nat) (pending : List Expr) :
    (printNext state line pending below).focus.Contained := by
  cases pending <;> exact contained

theorem contained_print (contained : below.Contained) (line : Nat) (value : Value)
    (pending : List Expr) : (print state line value pending below).focus.Contained := by
  unfold print
  split
  · exact contained_printNext contained line pending
  · exact contained

theorem contained_chooseBranch {whenTrue : Stmt} {whenFalse : Option Stmt}
    (caught : whenTrue.returns || Stmt.returns? whenFalse → below.inCall) (contained : below.Contained)
    (condition : Value) : (chooseBranch state condition whenTrue whenFalse below).focus.Contained := by
  rw [Bool.or_eq_true] at caught
  unfold chooseBranch
  split
  · exact ⟨fun returns => caught (.inl returns), contained⟩
  · split
    · exact ⟨fun returns => caught (.inr returns), contained⟩
    · exact contained

theorem contained_beginRound {loop : Loop} (caught : loop.body.returns → below.inCall)
    (contained : below.Contained) : (beginRound state loop below).focus.Contained := by
  unfold beginRound
  split
  · exact ⟨caught, contained⟩
  · exact ⟨caught, caught, contained⟩

theorem contained_endRound {loop : Loop} (caught : loop.body.returns → below.inCall)
    (contained : below.Contained) : (endRound state loop below).focus.Contained := by
  unfold endRound
  split
  · exact ⟨caught, contained⟩
  · exact contained_beginRound caught contained

theorem contained_execute {s : Stmt} (caught : s.returns → below.inCall) (contained : below.Contained) :
    (execute state s below).focus.Contained := by
  cases s with
  | expression value => exact contained
  | print line values => exact contained_printNext contained line values
  | declare target initializer => cases initializer <;> exact contained
  | block body => exact ⟨caught, contained⟩
  | branch condition whenTrue whenFalse => exact ⟨caught, contained⟩
  | whileLoop condition body => exact contained_beginRound caught contained
  | forLoop first condition increment body =>
      rw [Stmt.returns, Bool.or_eq_true] at caught
      have bodyCaught : body.returns → below.inCall := fun returns => caught (.inr returns)
      cases first with
      | none => exact contained_beginRound bodyCaught contained
      | some first => exact ⟨fun returns => caught (.inl returns), bodyCaught, contained⟩
  | function target parameters body => exact contained
  | giveBack line value => cases value <;> exact ⟨caught rfl, contained⟩

theorem contained_resumeValue (contained : stack.Contained) (value : Value) :
    (resumeValue state value stack).focus.Contained := by
  cases stack with
  | bottom => exact contained
  | unary op line below =>
      have inner : below.Contained := contained
      exact contained_deliver inner line _
  | binaryLeft op line right below => exact contained
  | binaryRight op line left below =>
      have inner : below.Contained := contained
      exact contained_deliver inner line _
  | logical op right below =>
      rw [resumeValue]
      split <;> exact contained
  | assign ref target below =>
      rw [resumeValue]
      split <;> exact contained
  | callee line arguments below =>
      have inner : below.Contained := contained
      exact contained_evaluateArguments inner line _ _ _
  | argument line callee done pending below =>
      have inner : below.Contained := contained
      exact contained_evaluateArguments inner line _ _ _
  | discard below => exact contained
  | print line pending below => exact contained_print contained line value pending
  | declare name below => exact contained
  | branch whenTrue whenFalse below => exact contained_chooseBranch contained.1 contained.2 value
  | loopCondition loop below =>
      rw [resumeValue]
      split
      · exact ⟨contained.1, contained⟩
      · exact contained.2
  | loopIncrement loop below => exact contained_beginRound contained.1 contained.2
  | giveBack below => exact contained

theorem contained_resumeFlow {flow : Flow} (contained : (Focus.flow flow below).Contained) :
    (resumeFlow state flow below).focus.Contained := by
  cases flow with
  | normal =>
      cases below with
      | bottom => exact contained
      | sequence rest below => exact contained
      | loopStart loop below => exact contained_beginRound contained.1 contained.2
      | loopBody loop below => exact contained_endRound contained.1 contained.2
      | leaveScope outer below => exact contained
      | leaveCall caller below => exact contained
  | returned value =>
      rcases contained with ⟨caught, contained⟩
      cases below with
      | bottom => cases caught
      | sequence rest below => exact ⟨caught, contained.2⟩
      | loopStart loop below => exact contained_beginRound contained.1 contained.2
      | loopBody loop below => exact ⟨caught, contained.2⟩
      | leaveScope outer below => exact ⟨caught, contained⟩
      | leaveCall caller below => exact contained

theorem contained_unwindValue (contained : stack.Contained) (failure : Failure) :
    (unwindValue state failure stack).focus.Contained := by
  cases stack <;> first
    | exact contained
    | exact contained.2

theorem contained_unwindFlow (contained : below.Contained) (failure : Failure) :
    (unwindFlow state failure below).focus.Contained := by
  cases below <;> first
    | exact contained
    | exact contained.2

/-- A step brings no `return` past the calls. -/
theorem contained_step {config : Config} (contained : config.focus.Contained) :
    config.step.focus.Contained := by
  rcases config with ⟨state, focus⟩
  cases focus with
  | evaluate e stack => exact contained_evaluate contained e
  | value value stack => exact contained_resumeValue contained value
  | execute s below => exact contained_execute contained.1 contained.2
  | executeAll ss below =>
      rcases contained with ⟨caught, contained⟩
      cases ss with
      | nil => exact contained
      | cons first rest =>
          rw [Stmt.returnsAny, Bool.or_eq_true] at caught
          exact ⟨fun returns => caught (.inl returns), fun returns => caught (.inr returns), contained⟩
  | flow flow below => exact contained_resumeFlow contained
  | unwindValue failure stack => exact contained_unwindValue contained failure
  | unwindFlow failure below => exact contained_unwindFlow contained failure

theorem contained_iterate_step {config : Config} (contained : config.focus.Contained) (n : Nat) :
    (step^[n] config).focus.Contained := by
  induction n with
  | zero => exact contained
  | succ n inductionHypothesis =>
      rw [Function.iterate_succ_apply']
      exact contained_step inductionHypothesis

/-- What was asked for from outside does not end with a `return`. -/
theorem flow_normal_of_contained {config : Config} (contained : config.focus.Contained) {n : Nat} {flow : Flow}
    (ended : (step^[n] config).focus = .flow flow .bottom) : flow = .normal := by
  have still := contained_iterate_step contained n
  rw [ended] at still
  cases flow with
  | normal => rfl
  | returned value => cases still.1

/-- An accepted program that has ended has run to its end. -/
theorem flow_normal_of_resolved {program : List Stmt} {references : List Reference}
    (resolved : resolve program = .ok references) {state : State} {n : Nat} {flow : Flow}
    (ended : (step^[n] (state.launch program)).focus = .flow flow .bottom) : flow = .normal := by
  have contained : (state.launch program).focus.Contained := by
    refine ⟨fun returns => ?_, trivial⟩
    rw [returnsAny_of_resolved resolved] at returns
    cases returns
  exact flow_normal_of_contained contained ended

end Config

end ScopedScript
