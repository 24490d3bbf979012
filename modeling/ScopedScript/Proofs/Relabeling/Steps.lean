import ScopedScript.Proofs.Relabeling.Values
namespace ScopedScript

/-!
# Steps under a relabeling

A relabeled program runs exactly as the program does.  Lines only end up in failures, and identities are
only ever looked up in the table of recorded distances; so it is enough that the table of the relabeled
program answers for the new identities as the other one does for the old ones, and only for those that
the program can still use.  That is `step_relabel`, and `iterate_step_relabel` for whole runs.
-/

variable (r : Relabeling) (d : Distances)

namespace Failure

/-- A failure that names another line. -/
def relabel : Failure → Failure
  | runtime error => runtime ⟨error.cause, r.line error.line⟩
  | defect fault => .defect fault

end Failure

namespace Flow

/-- The end of a statement with a relabeled value. -/
def relabel : Flow → Flow
  | normal => normal
  | returned value => returned (value.relabel r)

theorem result_relabel (flow : Flow) : (flow.relabel r).result = flow.result.relabel r := by
  cases flow <;> rfl

end Flow

/-- A loop with other identities and lines. -/
def Loop.relabel (loop : Loop) : Loop :=
  ⟨Expr.relabel? r loop.condition, Expr.relabel? r loop.increment, loop.body.relabel r⟩

mutual

/-- What waits for a value, with other identities and lines. -/
def ValueStack.relabel : ValueStack → ValueStack
  | .bottom => .bottom
  | .unary op line below => .unary op (r.line line) below.relabel
  | .binaryLeft op line right below => .binaryLeft op (r.line line) (right.relabel r) below.relabel
  | .binaryRight op line left below => .binaryRight op (r.line line) (left.relabel r) below.relabel
  | .logical op right below => .logical op (right.relabel r) below.relabel
  | .assign ref target below => .assign (r.ref ref) (target.relabel r) below.relabel
  | .callee line arguments below => .callee (r.line line) (Expr.relabelAll r arguments) below.relabel
  | .argument line callee done pending below =>
    .argument (r.line line) (callee.relabel r) (done.map (Value.relabel r)) (Expr.relabelAll r pending)
      below.relabel
  | .discard below => .discard below.relabel
  | .print line pending below => .print (r.line line) (Expr.relabelAll r pending) below.relabel
  | .declare name below => .declare name below.relabel
  | .branch whenTrue whenFalse below =>
    .branch (whenTrue.relabel r) (Stmt.relabel? r whenFalse) below.relabel
  | .loopCondition loop below => .loopCondition (loop.relabel r) below.relabel
  | .loopIncrement loop below => .loopIncrement (loop.relabel r) below.relabel
  | .giveBack below => .giveBack below.relabel

/-- What waits for the end of a statement, with other identities and lines. -/
def FlowStack.relabel : FlowStack → FlowStack
  | .bottom => .bottom
  | .sequence rest below => .sequence (Stmt.relabelAll r rest) below.relabel
  | .loopStart loop below => .loopStart (loop.relabel r) below.relabel
  | .loopBody loop below => .loopBody (loop.relabel r) below.relabel
  | .leaveScope outer below => .leaveScope outer below.relabel
  | .leaveCall caller below => .leaveCall caller below.relabel

end

/-- What happens next, with other identities and lines. -/
def Focus.relabel : Focus → Focus
  | evaluate e stack => evaluate (e.relabel r) (stack.relabel r)
  | value result stack => value (result.relabel r) (stack.relabel r)
  | execute s stack => execute (s.relabel r) (stack.relabel r)
  | executeAll ss stack => executeAll (Stmt.relabelAll r ss) (stack.relabel r)
  | flow ended stack => flow (ended.relabel r) (stack.relabel r)
  | unwindValue failure stack => unwindValue (failure.relabel r) (stack.relabel r)
  | unwindFlow failure stack => unwindFlow (failure.relabel r) (stack.relabel r)

/-- A state with relabeled values and another table of distances. -/
def State.relabel (state : State) : State :=
  { state with heap := state.heap.map (Value.relabel r), distances := d }

/-- A running program with other identities and lines, and another table of distances. -/
def Config.relabel (config : Config) : Config := ⟨config.state.relabel r d, config.focus.relabel r⟩

variable {r d}

/-! ## States -/

namespace State

variable (state : State)

theorem define_relabel (name : String) (value : Value) :
    (state.relabel r d).define name (value.relabel r) = (state.define name value).relabel r d :=
  congrArg (fun heap => { state with heap, distances := d }) (Heap.define_map _ _ _ _ _)

theorem defineFunction_relabel (name : String) (callable : Callable) :
    (state.relabel r d).defineFunction name (callable.relabel r) =
      (state.defineFunction name callable).relabel r d :=
  congrArg (fun heap => { state with heap, distances := d, identity := state.identity + 1 })
    (Heap.define_map _ state.heap state.scope name (.function state.identity callable))

theorem enterScope_relabel (outer : ScopeId) :
    (state.relabel r d).enterScope outer = (state.enterScope outer).relabel r d := by
  have scope : (state.relabel r d).heap.nextId = state.heap.nextId := Heap.nextId_map _ _
  have heap : (state.relabel r d).heap.create (some outer) =
      (state.heap.create (some outer)).map (Value.relabel r) := Heap.create_map _ _ _
  rw [enterScope, scope, heap]
  rfl

theorem bindParameters_relabel (parameters : List Identifier) (arguments : List Value) :
    (state.relabel r d).bindParameters (parameters.map (Identifier.relabel r))
        (arguments.map (Value.relabel r)) =
      (state.bindParameters parameters arguments).relabel r d := by
  induction parameters generalizing state arguments with
  | nil => rfl
  | cons parameter parameters inductionHypothesis =>
      cases arguments with
      | nil => rfl
      | cons argument arguments =>
          rw [List.map_cons, List.map_cons, bindParameters, bindParameters, Identifier.name_relabel,
            define_relabel]
          exact inductionHypothesis _ arguments

theorem enterCall_relabel (closure : Closure) (arguments : List Value) :
    (state.relabel r d).enterCall (closure.relabel r) (arguments.map (Value.relabel r)) =
      (state.enterCall closure arguments).relabel r d := by
  rw [enterCall, enterCall, ← bindParameters_relabel, ← enterScope_relabel]
  rfl

theorem read_relabel {ref : RefId} (target : Identifier)
    (same : d.find? (r.ref ref) = state.distances.find? ref) :
    (state.relabel r d).read (r.ref ref) (target.relabel r) =
      match state.read ref target with
      | .ok value => .ok (value.relabel r)
      | .error failure => .error (failure.relabel r) := by
  unfold read
  dsimp only [relabel]
  rw [same]
  cases state.distances.find? ref with
  | some distance =>
      dsimp only
      rw [Heap.getAt_map, Identifier.name_relabel]
      cases state.heap.getAt state.scope distance target.name <;> rfl
  | none =>
      dsimp only [Heap.get]
      rw [Heap.get?_map, Identifier.name_relabel]
      cases state.heap.get? globalScope target.name <;> rfl

theorem assign_relabel {ref : RefId} (target : Identifier) (value : Value)
    (same : d.find? (r.ref ref) = state.distances.find? ref) :
    (state.relabel r d).assign (r.ref ref) (target.relabel r) (value.relabel r) =
      match state.assign ref target value with
      | (after, .ok ()) => (after.relabel r d, .ok ())
      | (after, .error failure) => (after.relabel r d, .error (failure.relabel r)) := by
  have defined (holder : ScopeId) : (state.heap.map (Value.relabel r)).define holder target.name (value.relabel r) =
      (state.heap.define holder target.name value).map (Value.relabel r) := Heap.define_map _ _ _ _ _
  unfold assign
  dsimp only [relabel]
  rw [same]
  cases state.distances.find? ref with
  | some distance =>
      dsimp only [Heap.assignAt]
      rw [Heap.ancestor_map, Identifier.name_relabel]
      cases state.heap.ancestor state.scope distance with
      | error defect => rfl
      | ok holder =>
          dsimp only
          rw [defined]
  | none =>
      dsimp only [Heap.assign, Heap.assign?]
      rw [Heap.holder?_map, Identifier.name_relabel]
      cases state.heap.holder? globalScope target.name with
      | none => rfl
      | some holder =>
          dsimp only
          rw [defined]

end State

/-! ## What a step does -/

namespace Config

variable (state : State) (line : Nat) (stack : ValueStack) (below : FlowStack)

theorem deliver_relabel (result : Except RuntimeCause Value) :
    deliver (state.relabel r d) (r.line line) (result.map (Value.relabel r)) (stack.relabel r) =
      (deliver state line result stack).relabel r d := by
  cases result <;> rfl

theorem evaluate_relabel (e : Expr)
    (same : ∀ ref ∈ e.refs, d.find? (r.ref ref) = state.distances.find? ref) :
    evaluate (state.relabel r d) (e.relabel r) (stack.relabel r) =
      (evaluate state e stack).relabel r d := by
  match e with
  | .constant value =>
      change (⟨_, .value (.ofConstant value) _⟩ : Config) = ⟨_, .value (Value.relabel r _) _⟩
      rw [Value.relabel_ofConstant]
      rfl
  | .group _ | .unary _ _ _ | .binary _ _ _ _ | .logical _ _ _ | .assign _ _ _ | .call _ _ _ => rfl
  | .variable ref target =>
      rw [Expr.relabel, evaluate, evaluate, state.read_relabel target (same ref List.mem_cons_self)]
      cases state.read ref target <;> rfl

theorem call_relabel (callee : Value) (arguments : List Value) :
    call (state.relabel r d) (r.line line) (callee.relabel r) (arguments.map (Value.relabel r))
        (stack.relabel r) =
      (call state line callee arguments stack).relabel r d := by
  cases callee with
  | function identity callable =>
      unfold call
      dsimp only [Value.relabel]
      rw [List.length_map, Callable.arity_relabel]
      split
      · rfl
      · have limit : (state.relabel r d).isAtCallLimit = state.isAtCallLimit := rfl
        rw [limit]
        split
        · rfl
        · cases callable with
          | builtin builtin =>
              have host : (state.relabel r d).host = state.host := rfl
              dsimp only [Callable.relabel]
              rw [host, Builtin.apply_relabel]
              cases builtin.apply state.host.reading arguments <;> rfl
          | closure closure =>
              dsimp only [Callable.relabel]
              rw [State.enterCall_relabel]
              rfl
  | _ => rfl

theorem evaluateArguments_relabel (callee : Value) (done : List Value) (pending : List Expr) :
    evaluateArguments (state.relabel r d) (r.line line) (callee.relabel r)
        (done.map (Value.relabel r)) (Expr.relabelAll r pending) (stack.relabel r) =
      (evaluateArguments state line callee done pending stack).relabel r d := by
  cases pending with
  | nil =>
      rw [Expr.relabelAll, evaluateArguments, evaluateArguments, ← List.map_reverse]
      exact call_relabel state line stack callee done.reverse
  | cons next rest => rfl

theorem printNext_relabel (pending : List Expr) :
    printNext (state.relabel r d) (r.line line) (Expr.relabelAll r pending) (below.relabel r) =
      (printNext state line pending below).relabel r d := by
  cases pending <;> rfl

theorem print_relabel (value : Value) (pending : List Expr) :
    print (state.relabel r d) (r.line line) (value.relabel r) (Expr.relabelAll r pending)
        (below.relabel r) =
      (print state line value pending below).relabel r d := by
  have written : (state.relabel r d).writeLine (value.relabel r).render =
      ((state.writeLine value.render).1.relabel r d, (state.writeLine value.render).2) := by
    rw [Value.render_relabel]
    rfl
  rw [print, print, written]
  rcases state.writeLine value.render with ⟨after, taken⟩
  cases taken with
  | true => exact printNext_relabel after line below pending
  | false => rfl

theorem chooseBranch_relabel (condition : Value) (whenTrue : Stmt) (whenFalse : Option Stmt) :
    chooseBranch (state.relabel r d) (condition.relabel r) (whenTrue.relabel r)
        (Stmt.relabel? r whenFalse) (below.relabel r) =
      (chooseBranch state condition whenTrue whenFalse below).relabel r d := by
  unfold chooseBranch
  rw [Value.isTruthy_relabel]
  split
  · rfl
  · cases whenFalse <;> rfl

theorem beginRound_relabel (loop : Loop) :
    beginRound (state.relabel r d) (loop.relabel r) (below.relabel r) =
      (beginRound state loop below).relabel r d := by
  rcases loop with ⟨condition, increment, body⟩
  cases condition <;> rfl

theorem endRound_relabel (loop : Loop) :
    endRound (state.relabel r d) (loop.relabel r) (below.relabel r) =
      (endRound state loop below).relabel r d := by
  rcases loop with ⟨condition, increment, body⟩
  cases increment with
  | none => exact beginRound_relabel state below ⟨condition, none, body⟩
  | some increment => rfl

theorem execute_relabel (s : Stmt) :
    execute (state.relabel r d) (s.relabel r) (below.relabel r) =
      (execute state s below).relabel r d := by
  cases s with
  | print line values => exact printNext_relabel state line below values
  | declare target initializer =>
      cases initializer with
      | none => exact congrArg (Config.mk · _) (state.define_relabel target.name .nil)
      | some value => rfl
  | block body => exact congrArg (Config.mk · _) (state.enterScope_relabel state.scope)
  | whileLoop condition body => exact beginRound_relabel state below ⟨some condition, none, body⟩
  | forLoop initializer condition increment body =>
      have inside := state.enterScope_relabel (r := r) (d := d) state.scope
      cases initializer with
      | none =>
          refine Eq.trans ?_ (beginRound_relabel (state.enterScope state.scope)
            (.leaveScope state.scope below) ⟨condition, increment, body⟩)
          rw [← inside]
          rfl
      | some first => exact congrArg (Config.mk · _) inside
  | function target parameters body =>
      exact congrArg (Config.mk · _) (state.defineFunction_relabel target.name
        (.closure ⟨target.name, parameters, body, state.scope⟩))
  | giveBack line value => cases value <;> rfl
  | _ => rfl

theorem resumeValue_relabel (value : Value)
    (same : ∀ ref ∈ stack.refs, d.find? (r.ref ref) = state.distances.find? ref) :
    resumeValue (state.relabel r d) (value.relabel r) (stack.relabel r) =
      (resumeValue state value stack).relabel r d := by
  cases stack with
  | unary op line below =>
      rw [ValueStack.relabel, resumeValue, resumeValue, UnaryOp.apply_relabel, deliver_relabel]
  | binaryRight op line left below =>
      rw [ValueStack.relabel, resumeValue, resumeValue, BinaryOp.apply_relabel, deliver_relabel]
  | logical op right below =>
      rw [ValueStack.relabel, resumeValue, resumeValue, LogicalOp.isDecidedBy_relabel]
      split <;> rfl
  | assign ref target below =>
      rw [ValueStack.relabel, resumeValue, resumeValue,
        state.assign_relabel target value (same ref List.mem_cons_self)]
      rcases state.assign ref target value with ⟨after, _ | _⟩ <;> rfl
  | callee line arguments below => exact evaluateArguments_relabel state line below value [] arguments
  | argument line callee done pending below =>
      exact evaluateArguments_relabel state line below callee (value :: done) pending
  | print line pending below => exact print_relabel state line below value pending
  | declare name below => exact congrArg (Config.mk · _) (state.define_relabel name value)
  | branch whenTrue whenFalse below =>
      exact chooseBranch_relabel state below value whenTrue whenFalse
  | loopCondition loop below =>
      rw [ValueStack.relabel, resumeValue, resumeValue, Value.isTruthy_relabel]
      split <;> rfl
  | loopIncrement loop below => exact beginRound_relabel state below loop
  | _ => rfl

theorem resumeFlow_relabel (flow : Flow) :
    resumeFlow (state.relabel r d) (flow.relabel r) (below.relabel r) =
      (resumeFlow state flow below).relabel r d := by
  cases below with
  | sequence rest below => cases flow <;> rfl
  | loopStart loop below => exact beginRound_relabel state below loop
  | loopBody loop below =>
      cases flow with
      | normal => exact endRound_relabel state below loop
      | returned value => rfl
  | leaveCall caller below => exact congrArg (fun value => Config.mk _ (.value value _)) (flow.result_relabel r)
  | _ => rfl

theorem unwindValue_relabel (failure : Failure) :
    unwindValue (state.relabel r d) (failure.relabel r) (stack.relabel r) =
      (unwindValue state failure stack).relabel r d := by
  cases stack <;> rfl

theorem unwindFlow_relabel (failure : Failure) :
    unwindFlow (state.relabel r d) (failure.relabel r) (below.relabel r) =
      (unwindFlow state failure below).relabel r d := by
  cases below <;> rfl

/-! ## Every step, and whole runs -/

variable {config : Config}

/-- A relabeled program takes the relabeled step. -/
theorem step_relabel
    (same : ∀ ref ∈ config.focus.refs, d.find? (r.ref ref) = config.state.distances.find? ref) :
    (config.relabel r d).step = config.step.relabel r d := by
  rcases config with ⟨state, focus⟩
  cases focus with
  | evaluate e stack =>
      refine evaluate_relabel state stack e fun ref member => ?_
      exact same ref (List.mem_append_left _ member)
  | value value stack =>
      refine resumeValue_relabel state stack value fun ref member => ?_
      exact same ref (List.mem_append_right _ member)
  | execute s stack => exact execute_relabel state stack s
  | executeAll ss stack => cases ss <;> rfl
  | flow flow stack => exact resumeFlow_relabel state stack flow
  | unwindValue failure stack => exact unwindValue_relabel state stack failure
  | unwindFlow failure stack => exact unwindFlow_relabel state stack failure

end Config

/-! ## Nothing changes but the table -/

theorem Failure.relabel_same (failure : Failure) : failure.relabel .same = failure := by
  cases failure <;> rfl

theorem Flow.relabel_same (flow : Flow) : flow.relabel .same = flow := by
  cases flow with
  | normal => rfl
  | returned value => rw [relabel, Value.relabel_same]

theorem Loop.relabel_same (loop : Loop) : loop.relabel .same = loop := by
  rw [relabel, Expr.relabel?_same, Expr.relabel?_same, Stmt.relabel_same]

mutual

theorem ValueStack.relabel_same : ∀ stack : ValueStack, stack.relabel .same = stack
  | .bottom => rfl
  | .unary _ _ below | .assign _ _ below => by
      rw [ValueStack.relabel, ValueStack.relabel_same below]
      rfl
  | .discard below | .declare _ below | .giveBack below => by
      rw [ValueStack.relabel, FlowStack.relabel_same below]
  | .binaryLeft _ _ right below => by
      rw [ValueStack.relabel, ValueStack.relabel_same below, right.relabel_same]
      rfl
  | .binaryRight _ _ left below => by
      rw [ValueStack.relabel, ValueStack.relabel_same below, left.relabel_same]
      rfl
  | .logical _ right below => by
      rw [ValueStack.relabel, ValueStack.relabel_same below, right.relabel_same]
  | .callee _ arguments below => by
      rw [ValueStack.relabel, ValueStack.relabel_same below, Expr.relabelAll_same]
      rfl
  | .argument _ callee _ _ below => by
      rw [ValueStack.relabel, ValueStack.relabel_same below, callee.relabel_same,
        Expr.relabelAll_same, List.map_id'' Value.relabel_same]
      rfl
  | .print _ _ below => by
      rw [ValueStack.relabel, FlowStack.relabel_same below, Expr.relabelAll_same]
      rfl
  | .branch whenTrue whenFalse below => by
      rw [ValueStack.relabel, FlowStack.relabel_same below, whenTrue.relabel_same,
        Stmt.relabel?_same]
  | .loopCondition loop below | .loopIncrement loop below => by
      rw [ValueStack.relabel, FlowStack.relabel_same below, loop.relabel_same]

theorem FlowStack.relabel_same : ∀ stack : FlowStack, stack.relabel .same = stack
  | .bottom => rfl
  | .sequence _ below => by
      rw [FlowStack.relabel, FlowStack.relabel_same below, Stmt.relabelAll_same]
  | .loopStart loop below | .loopBody loop below => by
      rw [FlowStack.relabel, FlowStack.relabel_same below, loop.relabel_same]
  | .leaveScope _ below => by rw [FlowStack.relabel, FlowStack.relabel_same below]
  | .leaveCall _ below => by rw [FlowStack.relabel, ValueStack.relabel_same below]

end

theorem Focus.relabel_same (focus : Focus) : focus.relabel .same = focus := by
  cases focus <;>
    simp only [relabel, Expr.relabel_same, Stmt.relabel_same, Stmt.relabelAll_same,
      Value.relabel_same, Flow.relabel_same, Failure.relabel_same, ValueStack.relabel_same,
      FlowStack.relabel_same]

theorem State.relabel_same (state : State) : state.relabel .same d = { state with distances := d } :=
  congrArg (fun heap => { state with heap, distances := d }) (Heap.map_eq_self Value.relabel_same)

theorem Config.relabel_same (config : Config) :
    config.relabel .same d = ⟨{ config.state with distances := d }, config.focus⟩ := by
  rw [relabel, State.relabel_same, Focus.relabel_same]

theorem State.relabel_relabel (second first : Relabeling) (state : State) (other : Distances) :
    (state.relabel first other).relabel second d = state.relabel (second.after first) d := by
  refine congrArg (fun heap => { state with heap, distances := d }) ?_
  refine (Heap.map_map _ _ _).trans (congrArg (Heap.map · state.heap) (funext fun value => ?_))
  exact value.relabel_relabel second first

/-- What the functions on the heap do not mention may be relabeled in any way. -/
theorem State.relabel_congr {first second : Relabeling} {state : State}
    (agree : state.Within fun ref => first.ref ref = second.ref ref) (lines : first.line = second.line) :
    state.relabel first d = state.relabel second d := by
  refine congrArg (fun heap => { state with heap, distances := d }) (Heap.map_congr ?_)
  exact Heap.All.imp agree fun value all => value.relabel_congr ⟨all, lines⟩

/-! ## Whole runs -/

namespace Config

variable {config : Config}

/-- No step touches the recorded distances. -/
theorem distances_step (config : Config) : config.step.state.distances = config.state.distances := by
  have same : (config.relabel .same config.state.distances).step =
      config.step.relabel .same config.state.distances := step_relabel fun _ _ => rfl
  rw [relabel_same] at same
  exact congrArg (·.state.distances) same

theorem distances_iterate_step (config : Config) (n : Nat) :
    (step^[n] config).state.distances = config.state.distances := by
  induction n with
  | zero => rfl
  | succ n inductionHypothesis =>
      rw [Function.iterate_succ_apply', distances_step]
      exact inductionHypothesis

/-- A relabeled program runs as the program does, when the tables answer alike for the references that
the program can use. -/
theorem iterate_step_relabel
    (same : config.Within fun ref => d.find? (r.ref ref) = config.state.distances.find? ref) (n : Nat) :
    step^[n] (config.relabel r d) = (step^[n] config).relabel r d := by
  induction n with
  | zero => rfl
  | succ n inductionHypothesis =>
      rw [Function.iterate_succ_apply', Function.iterate_succ_apply', inductionHypothesis]
      refine step_relabel ?_
      rw [distances_iterate_step]
      exact (same.iterate_step n).2

end Config

end ScopedScript
