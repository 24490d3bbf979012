import Mathlib.Data.Nat.Find
import ScopedScript.Machine.Run
import ScopedScript.Proofs.Machine.Runs
namespace ScopedScript

/-!
# Programs in two parts

What waits at the bottom of the stacks does not matter for a step, as long as there is something to do
above it.  So the statements of a program run one after another, each as if it were alone, and a program
with more statements behind it runs as without them until it ends: then the others follow, unless it has
failed.
-/

section Onto

variable (base : FlowStack)

mutual

/-- What waits for a value, with something else at the bottom. -/
def ValueStack.onto : ValueStack → ValueStack
  | .bottom => .bottom
  | .unary op line below => .unary op line below.onto
  | .binaryLeft op line right below => .binaryLeft op line right below.onto
  | .binaryRight op line left below => .binaryRight op line left below.onto
  | .logical op right below => .logical op right below.onto
  | .assign ref target below => .assign ref target below.onto
  | .callee line arguments below => .callee line arguments below.onto
  | .argument line callee done pending below => .argument line callee done pending below.onto
  | .discard below => .discard below.onto
  | .print line pending below => .print line pending below.onto
  | .declare name below => .declare name below.onto
  | .branch whenTrue whenFalse below => .branch whenTrue whenFalse below.onto
  | .loopCondition loop below => .loopCondition loop below.onto
  | .loopIncrement loop below => .loopIncrement loop below.onto
  | .giveBack below => .giveBack below.onto

/-- What waits for the end of a statement, with something else at the bottom. -/
def FlowStack.onto : FlowStack → FlowStack
  | .bottom => base
  | .sequence rest below => .sequence rest below.onto
  | .loopStart loop below => .loopStart loop below.onto
  | .loopBody loop below => .loopBody loop below.onto
  | .leaveScope outer below => .leaveScope outer below.onto
  | .leaveCall caller below => .leaveCall caller below.onto

end

/-- What happens next, with something else at the bottom. -/
def Focus.onto : Focus → Focus
  | .evaluate e stack => .evaluate e (stack.onto base)
  | .value result stack => .value result (stack.onto base)
  | .execute s below => .execute s (.onto base below)
  | .executeAll ss below => .executeAll ss (.onto base below)
  | .flow ended below => .flow ended (.onto base below)
  | .unwindValue failure stack => .unwindValue failure (stack.onto base)
  | .unwindFlow failure below => .unwindFlow failure (.onto base below)

/-- A running program with something else at the bottom. -/
def Config.onto (config : Config) : Config := ⟨config.state, config.focus.onto base⟩

end Onto

namespace Config

variable {base : FlowStack} (state : State) (stack : ValueStack) (below : FlowStack)

theorem deliver_onto (line : Nat) (result : Except RuntimeCause Value) :
    deliver state line result (stack.onto base) = (deliver state line result stack).onto base := by
  cases result <;> rfl

theorem evaluate_onto (e : Expr) :
    evaluate state e (stack.onto base) = (evaluate state e stack).onto base := by
  unfold evaluate
  split
  case h_6 => split <;> rfl
  all_goals rfl

theorem call_onto (line : Nat) (callee : Value) (arguments : List Value) :
    call state line callee arguments (stack.onto base) =
      (call state line callee arguments stack).onto base := by
  unfold call
  split
  · split
    · rfl
    · split
      · rfl
      · split
        · split <;> rfl
        · rfl
  · rfl

theorem evaluateArguments_onto (line : Nat) (callee : Value) (done : List Value) (pending : List Expr) :
    evaluateArguments state line callee done pending (stack.onto base) =
      (evaluateArguments state line callee done pending stack).onto base := by
  cases pending with
  | nil => exact call_onto state stack line callee done.reverse
  | cons next rest => rfl

theorem printNext_onto (line : Nat) (pending : List Expr) :
    printNext state line pending (FlowStack.onto base below) =
      (printNext state line pending below).onto base := by
  cases pending <;> rfl

theorem print_onto (line : Nat) (value : Value) (pending : List Expr) :
    print state line value pending (FlowStack.onto base below) =
      (print state line value pending below).onto base := by
  unfold print
  split
  · exact printNext_onto _ below line pending
  · rfl

theorem chooseBranch_onto (condition : Value) (whenTrue : Stmt) (whenFalse : Option Stmt) :
    chooseBranch state condition whenTrue whenFalse (FlowStack.onto base below) =
      (chooseBranch state condition whenTrue whenFalse below).onto base := by
  unfold chooseBranch
  split
  · rfl
  · split <;> rfl

theorem beginRound_onto (loop : Loop) :
    beginRound state loop (FlowStack.onto base below) = (beginRound state loop below).onto base := by
  unfold beginRound
  split <;> rfl

theorem endRound_onto (loop : Loop) :
    endRound state loop (FlowStack.onto base below) = (endRound state loop below).onto base := by
  unfold endRound
  split
  · rfl
  · exact beginRound_onto state below loop

theorem execute_onto (s : Stmt) :
    execute state s (FlowStack.onto base below) = (execute state s below).onto base := by
  cases s with
  | print line values => exact printNext_onto state below line values
  | declare target initializer => cases initializer <;> rfl
  | whileLoop condition body => exact beginRound_onto state below ⟨some condition, none, body⟩
  | forLoop first condition increment body =>
      cases first with
      | none => exact beginRound_onto _ (.leaveScope state.scope below) _
      | some first => rfl
  | giveBack line value => cases value <;> rfl
  | _ => rfl

theorem resumeValue_onto (value : Value) :
    resumeValue state value (stack.onto base) = (resumeValue state value stack).onto base := by
  cases stack with
  | unary op line below => exact deliver_onto state below line _
  | binaryRight op line left below => exact deliver_onto state below line _
  | logical op right below =>
      rw [ValueStack.onto, resumeValue, resumeValue]
      split <;> rfl
  | assign ref target below =>
      rw [ValueStack.onto, resumeValue, resumeValue]
      split <;> rfl
  | callee line arguments below => exact evaluateArguments_onto state below line value [] arguments
  | argument line callee done pending below =>
      exact evaluateArguments_onto state below line callee (value :: done) pending
  | print line pending below => exact print_onto state below line value pending
  | branch whenTrue whenFalse below => exact chooseBranch_onto state below value whenTrue whenFalse
  | loopCondition loop below =>
      rw [ValueStack.onto, resumeValue, resumeValue]
      split <;> rfl
  | loopIncrement loop below => exact beginRound_onto state below loop
  | _ => rfl

theorem resumeFlow_onto (flow : Flow) (busy : below ≠ .bottom) :
    resumeFlow state flow (FlowStack.onto base below) = (resumeFlow state flow below).onto base := by
  cases below with
  | bottom => contradiction
  | sequence rest below => cases flow <;> rfl
  | loopStart loop below => exact beginRound_onto state below loop
  | loopBody loop below =>
      cases flow with
      | normal => exact endRound_onto state below loop
      | returned value => rfl
  | leaveScope outer below => rfl
  | leaveCall caller below => rfl

theorem unwindFlow_onto (failure : Failure) (busy : below ≠ .bottom) :
    unwindFlow state failure (FlowStack.onto base below) = (unwindFlow state failure below).onto base := by
  cases below with
  | bottom => contradiction
  | _ => rfl

variable {config : Config}

/-- As long as there is something to do above, the bottom does not matter for a step. -/
theorem step_onto (busy : config.isDone = false) : (config.onto base).step = config.step.onto base := by
  rcases config with ⟨state, focus⟩
  cases focus with
  | evaluate e stack => exact evaluate_onto state stack e
  | value value stack => exact resumeValue_onto state stack value
  | execute s below => exact execute_onto state below s
  | executeAll ss below => cases ss <;> rfl
  | flow flow below =>
      refine resumeFlow_onto state below flow fun atBottom => ?_
      subst atBottom
      cases busy
  | unwindValue failure stack => cases stack <;> rfl
  | unwindFlow failure below =>
      refine unwindFlow_onto state below failure fun atBottom => ?_
      subst atBottom
      cases busy

/-- A run with something else at the bottom, up to the moment when there is nothing to do above. -/
theorem iterate_step_onto {n : Nat} (busy : ∀ earlier < n, (step^[earlier] config).isDone = false) :
    step^[n] (config.onto base) = (step^[n] config).onto base := by
  induction n with
  | zero => rfl
  | succ n inductionHypothesis =>
      rw [Function.iterate_succ_apply', Function.iterate_succ_apply',
        inductionHypothesis fun earlier before => busy earlier (Nat.lt_succ_of_lt before)]
      exact step_onto (busy n (Nat.lt_succ_self n))

theorem isDone_onto (busy : config.isDone = false) (base : FlowStack) :
    (config.onto base).isDone = false := by
  rcases config with ⟨state, focus⟩
  cases focus <;> rename_i stack <;> cases stack <;> first
    | rfl
    | cases busy

/-- A run that ends does so for the first time after some number of steps, and until then the bottom does not
matter. -/
theorem exists_first_done {n : Nat} (done : (step^[n] config).isDone = true) :
    ∃ first ≤ n, (step^[first] config).isDone = true ∧
      ∀ base, step^[first] (config.onto base) = (step^[first] config).onto base := by
  have ends : ∃ first, (step^[first] config).isDone = true := ⟨n, done⟩
  refine ⟨Nat.find ends, Nat.find_min' ends done, Nat.find_spec ends, fun base => ?_⟩
  exact iterate_step_onto fun earlier before => eq_false_of_ne_true (Nat.find_min ends before)

/-- A run that ends over something else has first come to an end above it. -/
theorem done_of_onto {n : Nat} (done : (step^[n] (config.onto base)).isDone = true) :
    (step^[n] config).isDone = true := by
  by_contra never
  have busy : ∀ earlier ≤ n, (step^[earlier] config).isDone = false := by
    intro earlier before
    refine eq_false_of_ne_true fun doneEarlier => never ?_
    rw [iterate_step_eq_of_le doneEarlier before]
    exact doneEarlier
  rw [iterate_step_onto fun earlier before => busy earlier (Nat.le_of_lt before),
    isDone_onto (busy n (Nat.le_refl n))] at done
  cases done

/-- What a run that has ended goes on with: other statements, when it has run to its end. -/
def followedBy (others : List Stmt) (config : Config) : Config :=
  match config.focus with
  | .flow .normal .bottom => config.state.launch others
  | _ => config

/-- Over other statements, what has ended goes on with them in one step. -/
theorem step_onto_sequence (done : config.isDone = true) (rest : List Stmt) :
    (config.onto (.sequence rest .bottom)).step = config.followedBy rest := by
  rcases config with ⟨state, focus⟩
  cases focus with
  | evaluate e stack => cases done
  | value value stack =>
      cases stack with
      | bottom => rfl
      | _ => cases done
  | execute s below => cases done
  | executeAll ss below => cases done
  | flow flow below =>
      cases below with
      | bottom => cases flow <;> rfl
      | _ => cases done
  | unwindValue failure stack =>
      cases stack with
      | bottom => rfl
      | _ => cases done
  | unwindFlow failure below =>
      cases below with
      | bottom => rfl
      | _ => cases done

theorem followedBy_of_normal (normal : config.focus = .flow .normal .bottom) (others : List Stmt) :
    config.followedBy others = config.state.launch others := by
  rw [followedBy, normal]

theorem followedBy_of_not_normal (notNormal : config.focus ≠ .flow .normal .bottom) (others : List Stmt) :
    config.followedBy others = config := by
  unfold followedBy
  split
  · contradiction
  · rfl

/-- The first statement of a program runs as if it were alone.  Once it has ended, the others follow. -/
theorem launch_cons {state : State} {first : Stmt} {n : Nat}
    (done : (step^[n] ⟨state, .execute first .bottom⟩).isDone = true) :
    ∃ soon ≤ n, ∀ rest, step^[soon + 2] (state.launch (first :: rest)) =
      (step^[n] ⟨state, .execute first .bottom⟩).followedBy rest := by
  rcases exists_first_done done with ⟨soon, before, doneSoon, plugged⟩
  refine ⟨soon, before, fun rest => ?_⟩
  change step^[soon + 1] (onto (.sequence rest .bottom) ⟨state, .execute first .bottom⟩) = _
  rw [iterate_step_eq_of_le doneSoon before, Function.iterate_succ_apply', plugged,
    step_onto_sequence doneSoon]

/-- A program that has ended has ended its first statement, and gone on with the others. -/
theorem done_of_launch_cons {state : State} {first : Stmt} {rest : List Stmt} {n : Nat}
    (done : (step^[n] (state.launch (first :: rest))).isDone = true) :
    ∃ soon more, (step^[soon] ⟨state, .execute first .bottom⟩).isDone = true ∧
      step^[n] (state.launch (first :: rest)) =
        step^[more] ((step^[soon] ⟨state, .execute first .bottom⟩).followedBy rest) := by
  cases n with
  | zero => cases done
  | succ n =>
      have doneAlone : (step^[n] ⟨state, .execute first .bottom⟩).isDone = true :=
        done_of_onto done
      rcases launch_cons doneAlone with ⟨soon, before, follows⟩
      rcases Nat.exists_eq_add_of_le' before with ⟨more, same⟩
      refine ⟨n, more, doneAlone, ?_⟩
      -- One step more than it takes does no harm, and passes what is done on to the rest.
      rw [← iterate_step_eq_of_le done (Nat.le_succ (n + 1)), ← follows rest,
        ← Function.iterate_add_apply, same]
      rfl

/-- A program that ends by itself does so with other statements behind it too, and then they follow. -/
theorem launch_append (program : List Stmt) {state : State} {n : Nat}
    (done : (step^[n] (state.launch program)).isDone = true) :
    ∃ k, ∀ others, step^[k] (state.launch (program ++ others)) =
      (step^[n] (state.launch program)).followedBy others := by
  induction program generalizing state n with
  | nil =>
      cases n with
      | zero => cases done
      | succ n =>
          have ended : step^[n + 1] (state.launch []) = ⟨state, .flow .normal .bottom⟩ :=
            iterate_step_of_isDone rfl n
          rw [ended]
          exact ⟨0, fun _ => rfl⟩
  | cons first rest inductionHypothesis =>
      rcases done_of_launch_cons done with ⟨alone, more, doneAlone, ends⟩
      rcases launch_cons doneAlone with ⟨soon, -, begins⟩
      rw [ends] at done ⊢
      by_cases normal : (step^[alone] ⟨state, .execute first .bottom⟩).focus = .flow .normal .bottom
      · rw [followedBy_of_normal normal] at done ⊢
        rcases inductionHypothesis done with ⟨k, follows⟩
        refine ⟨k + (soon + 2), fun others => ?_⟩
        rw [List.cons_append, Function.iterate_add_apply, begins, followedBy_of_normal normal, follows]
      · refine ⟨soon + 2, fun others => ?_⟩
        rw [List.cons_append, begins, followedBy_of_not_normal normal, followedBy_of_not_normal normal,
          iterate_step_of_isDone doneAlone, followedBy_of_not_normal normal]

end Config

end ScopedScript
