import ScopedScript.Machine.Advance
import ScopedScript.Proofs.Machine.ActiveCalls
namespace ScopedScript

/-!
# Runs in other surroundings

A running program has a host and a sink.  It asks the host for the time and for the limit on calls, and it
writes lines to the sink, which answers whether it took them.  So in other surroundings that give the same
answers the program makes the same step, and the surroundings are all that is different afterwards.
-/

/-- Other surroundings: what stands in place of a host and of a sink. -/
structure Surroundings where
  host : Host → Host
  sink : Sink → Sink

/-- The other clock shows what the clock of the host itself does, and both hosts stay counterparts when it is read. -/
def Surroundings.Shows (other : Surroundings) (host : Host) : Prop :=
  (other.host host).reading = host.reading ∧ (other.host host).tick = other.host host.tick

/-- The other sink takes a line exactly if the sink itself does, and both stay counterparts. -/
def Surroundings.Takes (other : Surroundings) (sink : Sink) (text : String) : Prop :=
  (other.sink sink).writeLine text = (other.sink (sink.writeLine text).1, (sink.writeLine text).2)

namespace State

/-- The same state in other surroundings. -/
def transferred (state : State) (other : Surroundings) : State :=
  { state with host := other.host state.host, sink := other.sink state.sink }

variable (state : State) (other : Surroundings)

theorem bindParameters_transferred (parameters : List Identifier) (arguments : List Value) :
    (state.transferred other).bindParameters parameters arguments =
      (state.bindParameters parameters arguments).transferred other := by
  induction parameters generalizing state arguments with
  | nil => cases arguments <;> rfl
  | cons parameter parameters inductionHypothesis =>
      cases arguments with
      | nil => rfl
      | cons argument arguments => exact inductionHypothesis (state.define parameter.name argument) arguments

theorem enterCall_transferred (closure : Closure) (arguments : List Value) :
    (state.transferred other).enterCall closure arguments =
      (state.enterCall closure arguments).transferred other := by
  have inside := bindParameters_transferred
    ({ state with depth := state.depth + 1 }.enterScope closure.scope) other closure.parameters arguments
  exact inside

end State

namespace Config

/-- The same running program in other surroundings. -/
def transferred (config : Config) (other : Surroundings) : Config :=
  ⟨config.state.transferred other, config.focus⟩

/-- What is printed by the next step. -/
def printing? (config : Config) : Option String :=
  match config.focus with
  | .value value (.print _ _ _) => some value.render
  | _ => none

variable (state : State) (other : Surroundings) (stack : ValueStack) (below : FlowStack)

theorem deliver_transferred (line : Nat) (result : Except RuntimeCause Value) :
    deliver (state.transferred other) line result stack =
      (deliver state line result stack).transferred other := by
  cases result <;> rfl

theorem evaluate_transferred (e : Expr) :
    evaluate (state.transferred other) e stack = (evaluate state e stack).transferred other := by
  unfold evaluate
  split
  case h_6 ref target =>
    have same : (state.transferred other).read ref target = state.read ref target := rfl
    rw [same]
    split <;> rfl
  all_goals rfl

/-- A call that finds room under both limits, or under neither, or that is not made at all.  A builtin sees the same
reading of both clocks. -/
theorem call_transferred (line : Nat) (callee : Value) (arguments : List Value)
    (same : callee.takes arguments.length = true →
      (state.transferred other).isAtCallLimit = state.isAtCallLimit)
    (shows : state.asksBuiltin callee arguments.length = true → other.Shows state.host) :
    call (state.transferred other) line callee arguments stack =
      (call state line callee arguments stack).transferred other := by
  cases callee with
  | function identity callable =>
      unfold call
      by_cases fits : arguments.length = callable.arity
      · dsimp only
        rw [if_neg (not_not_intro fits), if_neg (not_not_intro fits), same (beq_iff_eq.mpr fits)]
        split
        · rfl
        · rename_i room
          cases callable with
          | builtin builtin =>
              have asks : state.asksBuiltin (.function identity (.builtin builtin)) arguments.length = true :=
                Bool.and_eq_true_iff.mpr ⟨beq_iff_eq.mpr fits, congrArg not (Bool.eq_false_iff.mpr room)⟩
              obtain ⟨sameReading, bothTick⟩ := shows asks
              have sameReading : (state.transferred other).host.reading = state.host.reading := sameReading
              have ticked : (state.transferred other).tick = state.tick.transferred other := by
                rw [State.tick, State.transferred, bothTick]
                rfl
              dsimp only
              rw [sameReading, ticked]
              cases builtin.apply state.host.reading arguments <;> rfl
          | closure closure =>
              dsimp only
              rw [State.enterCall_transferred]
              rfl
      · dsimp only
        rw [if_pos fits, if_pos fits]
        rfl
  | _ => rfl

theorem evaluateArguments_transferred (line : Nat) (callee : Value) (done : List Value)
    (pending : List Expr) (same : pending = [] → callee.takes done.length = true →
      (state.transferred other).isAtCallLimit = state.isAtCallLimit)
    (shows : pending = [] → state.asksBuiltin callee done.length = true → other.Shows state.host) :
    evaluateArguments (state.transferred other) line callee done pending stack =
      (evaluateArguments state line callee done pending stack).transferred other := by
  cases pending with
  | nil =>
      have sameLength : done.reverse.length = done.length := List.length_reverse
      refine call_transferred state other stack line callee done.reverse (fun takes => same rfl ?_)
        fun asks => shows rfl ?_
      · rwa [sameLength] at takes
      · rwa [sameLength] at asks
  | cons next rest => rfl

theorem printNext_transferred (line : Nat) (pending : List Expr) :
    printNext (state.transferred other) line pending below =
      (printNext state line pending below).transferred other := by
  cases pending <;> rfl

theorem print_transferred (line : Nat) {value : Value} (pending : List Expr)
    (takes : other.Takes state.sink value.render) :
    print (state.transferred other) line value pending below =
      (print state line value pending below).transferred other := by
  have written : (state.transferred other).writeLine value.render =
      ((state.writeLine value.render).1.transferred other, (state.writeLine value.render).2) := by
    unfold State.writeLine State.transferred
    dsimp only
    rw [takes]
  unfold print
  rw [written]
  rcases state.writeLine value.render with ⟨after, whole⟩
  cases whole with
  | true => exact printNext_transferred after other below line pending
  | false => rfl

theorem chooseBranch_transferred (condition : Value) (whenTrue : Stmt) (whenFalse : Option Stmt) :
    chooseBranch (state.transferred other) condition whenTrue whenFalse below =
      (chooseBranch state condition whenTrue whenFalse below).transferred other := by
  unfold chooseBranch
  split
  · rfl
  · cases whenFalse <;> rfl

theorem beginRound_transferred (loop : Loop) :
    beginRound (state.transferred other) loop below =
      (beginRound state loop below).transferred other := by
  rcases loop with ⟨condition, increment, body⟩
  cases condition <;> rfl

theorem endRound_transferred (loop : Loop) :
    endRound (state.transferred other) loop below = (endRound state loop below).transferred other := by
  rcases loop with ⟨condition, increment, body⟩
  cases increment with
  | none => exact beginRound_transferred state other below _
  | some increment => rfl

theorem execute_transferred (s : Stmt) :
    execute (state.transferred other) s below = (execute state s below).transferred other := by
  cases s with
  | print line values => exact printNext_transferred state other below line values
  | declare target initializer => cases initializer <;> rfl
  | whileLoop condition body => exact beginRound_transferred state other below ⟨some condition, none, body⟩
  | forLoop first condition increment body =>
      cases first with
      | none => exact beginRound_transferred (state.enterScope state.scope) other _ _
      | some first => rfl
  | giveBack line value => cases value <;> rfl
  | expression | block | branch | function => rfl

theorem resumeValue_transferred (value : Value)
    (same : (calling? ⟨state, .value value stack⟩).isSome = true →
      (state.transferred other).isAtCallLimit = state.isAtCallLimit)
    (shows : readsClock ⟨state, .value value stack⟩ = true → other.Shows state.host)
    (takes : ∀ text, printing? ⟨state, .value value stack⟩ = some text → other.Takes state.sink text) :
    resumeValue (state.transferred other) value stack =
      (resumeValue state value stack).transferred other := by
  cases stack with
  | unary op line below | binaryRight op line left below => exact deliver_transferred state other below line _
  | logical op right below =>
      rw [resumeValue, resumeValue]
      split <;> rfl
  | assign ref target below =>
      have sameScope : (state.transferred other).writeScope ref target = state.writeScope ref target := rfl
      rw [resumeValue, resumeValue, State.assign_eq, State.assign_eq, sameScope]
      cases state.writeScope ref target <;> rfl
  | callee line arguments below =>
      refine evaluateArguments_transferred state other below line value [] arguments (fun none fits => same ?_)
        fun none asks => shows ?_
      · subst none
        exact congrArg Option.isSome (if_pos fits)
      · subst none
        exact asks
  | argument line callee done pending below =>
      refine evaluateArguments_transferred state other below line callee (value :: done) pending
        (fun none fits => same ?_) fun none asks => shows ?_
      · subst none
        exact congrArg Option.isSome (if_pos fits)
      · subst none
        exact asks
  | print line pending below => exact print_transferred state other below line pending (takes _ rfl)
  | branch whenTrue whenFalse below => exact chooseBranch_transferred state other below value whenTrue whenFalse
  | loopCondition loop below =>
      rw [resumeValue, resumeValue]
      split <;> rfl
  | loopIncrement loop below => exact beginRound_transferred state other below loop
  | bottom | binaryLeft | discard | declare | giveBack => rfl

theorem resumeFlow_transferred (flow : Flow) :
    resumeFlow (state.transferred other) flow below =
      (resumeFlow state flow below).transferred other := by
  cases below with
  | sequence rest below => cases flow <;> rfl
  | loopStart loop below => exact beginRound_transferred state other below loop
  | loopBody loop below =>
      cases flow with
      | normal => exact endRound_transferred state other below loop
      | returned value => rfl
  | bottom | leaveScope | leaveCall => rfl

variable {state other} {config : Config}

/-- A step is the same in other surroundings, if a call finds room in both or in neither, a builtin sees the same
reading of both clocks, and a line is taken by both sinks or by neither. -/
theorem step_transferred (same : config.calling?.isSome = true →
      (config.state.transferred other).isAtCallLimit = config.state.isAtCallLimit)
    (shows : config.readsClock = true → other.Shows config.state.host)
    (takes : ∀ text, config.printing? = some text → other.Takes config.state.sink text) :
    (config.transferred other).step = config.step.transferred other := by
  rcases config with ⟨state, focus⟩
  cases focus with
  | evaluate e stack => exact evaluate_transferred state other stack e
  | value value stack => exact resumeValue_transferred state other stack value same shows takes
  | execute s below => exact execute_transferred state other below s
  | executeAll ss below => cases ss <;> rfl
  | flow flow below => exact resumeFlow_transferred state other below flow
  | unwindValue failure stack => cases stack <;> rfl
  | unwindFlow failure below => cases below <;> rfl

/-- A step that does not read the clock leaves the host alone, since it would do the same with any other one. -/
theorem host_step_of_not_reading (notReading : config.readsClock = false) :
    config.step.state.host = config.state.host := by
  let still : Surroundings := ⟨fun _ => config.state.host, id⟩
  have alone : (config.transferred still).step = config.step.transferred still := by
    refine step_transferred (fun _ => rfl) (fun reading => ?_) fun _ _ => rfl
    rw [notReading] at reading
    cases reading
  exact congrArg (fun config => config.state.host) alone

/-- A step that does not print leaves the sink alone, since it would do the same with any other one. -/
theorem sink_step_of_not_printing (notPrinting : config.printing? = none) :
    config.step.state.sink = config.state.sink := by
  let still : Surroundings := ⟨id, fun _ => config.state.sink⟩
  have alone : (config.transferred still).step = config.step.transferred still := by
    apply step_transferred (fun _ => rfl) fun _ => ⟨rfl, rfl⟩
    intro text printing
    rw [notPrinting] at printing
    cases printing
  exact congrArg (fun config => config.state.sink) alone

/-- What is about to print a line has the value of a `print`. -/
theorem focus_of_printing {text : String} (printing : config.printing? = some text) :
    ∃ value line pending below, config.focus = .value value (.print line pending below) ∧ value.render = text := by
  rcases config with ⟨state, focus⟩
  cases focus with
  | value value stack =>
      cases stack with
      | print line pending below =>
          cases printing
          exact ⟨value, line, pending, below, rfl, rfl⟩
      | _ => cases printing
  | _ => cases printing

end Config

end ScopedScript
