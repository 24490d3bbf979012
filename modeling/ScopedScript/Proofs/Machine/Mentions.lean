import ScopedScript.Machine.Step
import ScopedScript.Proofs.Machine.Changes
import ScopedScript.Proofs.Grammar.References
import ScopedScript.Proofs.Machine.Heaps
import ScopedScript.Proofs.Machine.Runs
import ScopedScript.Proofs.Scoping.AlikeValues
namespace ScopedScript

/-!
# The references that a running program can still use

A running program only uses references that stand in the code it has left to run, or in the body of a
function that it can still get hold of.  A step never makes up a new one, so whatever holds of all of them
goes on holding: `within_step`.
-/

/-- The references in the body of a function value. -/
def Value.refs : Value → List RefId
  | .function _ (.closure closure) => Stmt.refsOf closure.body
  | _ => []

/-- The references in the bodies of several function values. -/
def Value.refsOf (values : List Value) : List RefId := values.flatMap Value.refs

/-- The references in the value of a `return` on its way. -/
def Flow.refs : Flow → List RefId
  | .normal => []
  | .returned value => value.refs

/-- The references of a loop under way. -/
def Loop.refs (loop : Loop) : List RefId :=
  Expr.refs? loop.condition ++ (Expr.refs? loop.increment ++ loop.body.refs)

mutual

/-- The references in what waits for a value. -/
def ValueStack.refs : ValueStack → List RefId
  | .bottom => []
  | .unary _ _ below => below.refs
  | .binaryLeft _ _ right below => right.refs ++ below.refs
  | .binaryRight _ _ left below => left.refs ++ below.refs
  | .logical _ right below => right.refs ++ below.refs
  | .assign ref _ below => ref :: below.refs
  | .callee _ arguments below => Expr.refsOf arguments ++ below.refs
  | .argument _ callee done pending below =>
    callee.refs ++ (Value.refsOf done ++ (Expr.refsOf pending ++ below.refs))
  | .discard below => below.refs
  | .print _ pending below => Expr.refsOf pending ++ below.refs
  | .declare _ below => below.refs
  | .branch whenTrue whenFalse below => whenTrue.refs ++ (Stmt.refs? whenFalse ++ below.refs)
  | .loopCondition loop below => loop.refs ++ below.refs
  | .loopIncrement loop below => loop.refs ++ below.refs
  | .giveBack below => below.refs

/-- The references in what waits for the end of a statement. -/
def FlowStack.refs : FlowStack → List RefId
  | .bottom => []
  | .sequence rest below => Stmt.refsOf rest ++ below.refs
  | .loopStart loop below => loop.refs ++ below.refs
  | .loopBody loop below => loop.refs ++ below.refs
  | .leaveScope _ below => below.refs
  | .leaveCall _ below => below.refs

end

/-- The references in what happens next and in everything that waits for it. -/
def Focus.refs : Focus → List RefId
  | .evaluate e stack => e.refs ++ stack.refs
  | .value result stack => result.refs ++ stack.refs
  | .execute s stack => s.refs ++ stack.refs
  | .executeAll ss stack => Stmt.refsOf ss ++ stack.refs
  | .flow ended stack => ended.refs ++ stack.refs
  | .unwindValue _ stack => stack.refs
  | .unwindFlow _ stack => stack.refs

variable {P : RefId → Prop}

/-- All references in functions on the heap have a property. -/
def State.Within (P : RefId → Prop) (state : State) : Prop :=
  state.heap.All fun value => ∀ ref ∈ value.refs, P ref

/-- All references that a running program can still use have a property. -/
def Config.Within (P : RefId → Prop) (config : Config) : Prop :=
  config.state.Within P ∧ ∀ ref ∈ config.focus.refs, P ref

/-! ## States -/

/-- What a reference reads is on the heap. -/
theorem State.holds_of_read {state : State} {Q : Value → Prop} (all : state.heap.All Q) {ref : RefId}
    {target : Identifier} {value : Value} (found : state.read ref target = .ok value) : Q value := by
  unfold State.read at found
  split at found
  · split at found
    · rename_i read
      cases found
      exact all.getAt read
    · cases found
  · split at found
    · rename_i read
      cases found
      exact all.get read
    · cases found

namespace State.Within

variable {state : State}

theorem imp {Q : RefId → Prop} (within : state.Within P) (follows : ∀ ref, P ref → Q ref) :
    state.Within Q :=
  Heap.All.imp within fun _ all ref member => follows ref (all ref member)

theorem define (within : state.Within P) {value : Value} (all : ∀ ref ∈ value.refs, P ref)
    (name : String) : (state.define name value).Within P :=
  Heap.All.define within all state.scope name

theorem enterScope (within : state.Within P) (outer : ScopeId) : (state.enterScope outer).Within P :=
  Heap.All.create within (some outer)

theorem bindParameters (parameters : List Identifier) {arguments : List Value}
    (within : state.Within P) (all : ∀ ref ∈ Value.refsOf arguments, P ref) :
    (state.bindParameters parameters arguments).Within P := by
  induction parameters generalizing state arguments with
  | nil => exact within
  | cons parameter rest inductionHypothesis =>
      cases arguments with
      | nil => exact within
      | cons argument others =>
          rw [Value.refsOf, List.flatMap_cons, List.forall_mem_append] at all
          exact inductionHypothesis (within.define all.1 parameter.name) all.2

theorem enterCall (within : state.Within P) (closure : Closure) {arguments : List Value}
    (all : ∀ ref ∈ Value.refsOf arguments, P ref) : (state.enterCall closure arguments).Within P :=
  have deeper : State.Within P { state with depth := state.depth + 1 } := within
  bindParameters closure.parameters (deeper.enterScope closure.scope) all

theorem read (within : state.Within P) {ref : RefId} {target : Identifier} {value : Value}
    (found : state.read ref target = .ok value) : ∀ ref ∈ value.refs, P ref :=
  holds_of_read within found

end State.Within

/-! ## Values that hold no references -/

theorem Value.refs_of_not_closure {value : Value} (notClosure : value.isClosure = false) :
    value.refs = [] := by
  cases value with
  | function identity callable =>
      cases callable with
      | closure closure => cases notClosure
      | builtin builtin => rfl
  | _ => rfl

theorem Value.refs_ofConstant (value : Constant) : (Value.ofConstant value).refs = [] := by
  cases value <;> rfl

/-- A builtin makes no new functions, but it may hand one of its arguments back. -/
theorem Builtin.isClosure_or_mem_of_apply {builtin : Builtin} {reading : ClockReading} {arguments : List Value}
    {result : Value} (applied : builtin.apply reading arguments = .ok result) :
    result.isClosure = false ∨ result ∈ arguments := by
  unfold Builtin.apply at applied
  split at applied
  next reply _ =>
    cases applied
    cases reply with
    | constant value => exact .inl (Value.isClosure_ofConstant value)
    | argument place =>
        rw [Reply.value, List.getD_eq_getElem?_getD]
        cases found : arguments[place]? with
        | none => exact .inl rfl
        | some value => exact .inr (List.mem_of_getElem? found)
  next => cases applied

theorem Builtin.refs_of_apply {builtin : Builtin} {reading : ClockReading} {arguments : List Value}
    {result : Value} (applied : builtin.apply reading arguments = .ok result)
    (all : ∀ ref ∈ Value.refsOf arguments, P ref) : ∀ ref ∈ result.refs, P ref := by
  rcases isClosure_or_mem_of_apply applied with notClosure | isArgument
  · rw [Value.refs_of_not_closure notClosure]
    nofun
  · exact fun ref member => all ref (List.mem_flatMap.mpr ⟨result, isArgument, member⟩)

/-! ## Steps -/

variable {state : State} {line : Nat} {stack : ValueStack} {below : FlowStack}

/-- What holds of references in two places holds of them together. -/
theorem holds_append {front back : List RefId} (first : ∀ ref ∈ front, P ref)
    (second : ∀ ref ∈ back, P ref) : ∀ ref ∈ front ++ back, P ref :=
  List.forall_mem_append.mpr ⟨first, second⟩

namespace Config.Within

theorem imp {config : Config} {Q : RefId → Prop} (within : config.Within P)
    (follows : ∀ ref, P ref → Q ref) : config.Within Q :=
  ⟨within.1.imp follows, fun ref member => follows ref (within.2 ref member)⟩

/-- A value without functions is on its way. -/
theorem plain (within : state.Within P) {value : Value} (plain : value.refs = [])
    (waiting : ∀ ref ∈ stack.refs, P ref) : Config.Within P ⟨state, .value value stack⟩ := by
  refine ⟨within, holds_append ?_ waiting⟩
  rw [plain]
  nofun

theorem deliver (within : state.Within P) {result : Except RuntimeCause Value}
    (notClosure : ∀ value, result = .ok value → value.isClosure = false)
    (waiting : ∀ ref ∈ stack.refs, P ref) : (Config.deliver state line result stack).Within P := by
  cases result with
  | error cause => exact ⟨within, waiting⟩
  | ok value => exact plain within (Value.refs_of_not_closure (notClosure value rfl)) waiting

theorem evaluate (within : state.Within P) {e : Expr} (all : ∀ ref ∈ e.refs, P ref)
    (waiting : ∀ ref ∈ stack.refs, P ref) : (Config.evaluate state e stack).Within P := by
  match e, all with
  | .constant value, _ => exact plain within (Value.refs_ofConstant value) waiting
  | .group _, all | .unary _ _ _, all => exact ⟨within, holds_append all waiting⟩
  | .binary _ _ _ _, all | .logical _ _ _, all | .call _ _ _, all =>
      rcases List.forall_mem_append.mp all with ⟨first, rest⟩
      exact ⟨within, holds_append first (holds_append rest waiting)⟩
  | .assign _ _ _, all =>
      rcases List.forall_mem_append.mp all with ⟨first, rest⟩
      exact ⟨within, holds_append first (List.forall_mem_cons.mpr ⟨rest _ List.mem_cons_self, waiting⟩)⟩
  | .variable ref target, _ =>
      unfold Config.evaluate
      dsimp only
      split
      · rename_i found
        exact ⟨within, holds_append (within.read found) waiting⟩
      · exact ⟨within, waiting⟩

theorem call (within : state.Within P) {callee : Value} {arguments : List Value}
    (calleeAll : ∀ ref ∈ callee.refs, P ref) (all : ∀ ref ∈ Value.refsOf arguments, P ref)
    (waiting : ∀ ref ∈ stack.refs, P ref) :
    (Config.call state line callee arguments stack).Within P := by
  unfold Config.call
  split
  · split
    · exact ⟨within, waiting⟩
    · split
      · exact ⟨within, waiting⟩
      · split
        · split
          · rename_i applied
            exact ⟨within, holds_append (Builtin.refs_of_apply applied all) waiting⟩
          · exact ⟨within, waiting⟩
        · exact ⟨within.enterCall _ all, holds_append calleeAll waiting⟩
  · exact ⟨within, waiting⟩

theorem evaluateArguments (within : state.Within P) {callee : Value} {done : List Value}
    {pending : List Expr} (calleeAll : ∀ ref ∈ callee.refs, P ref)
    (doneAll : ∀ ref ∈ Value.refsOf done, P ref) (pendingAll : ∀ ref ∈ Expr.refsOf pending, P ref)
    (waiting : ∀ ref ∈ stack.refs, P ref) :
    (Config.evaluateArguments state line callee done pending stack).Within P := by
  cases pending with
  | nil =>
      refine call within calleeAll (fun ref member => doneAll ref ?_) waiting
      rcases List.mem_flatMap.mp member with ⟨value, listed, inside⟩
      exact List.mem_flatMap.mpr ⟨value, List.mem_reverse.mp listed, inside⟩
  | cons next rest =>
      rcases List.forall_mem_append.mp pendingAll with ⟨first, others⟩
      exact ⟨within, holds_append first
        (holds_append calleeAll (holds_append doneAll (holds_append others waiting)))⟩

theorem printNext (within : state.Within P) {pending : List Expr}
    (all : ∀ ref ∈ Expr.refsOf pending, P ref) (waiting : ∀ ref ∈ below.refs, P ref) :
    (Config.printNext state line pending below).Within P := by
  cases pending with
  | nil => exact ⟨within, waiting⟩
  | cons next rest =>
      rcases List.forall_mem_append.mp all with ⟨first, others⟩
      exact ⟨within, holds_append first (holds_append others waiting)⟩

theorem print (within : state.Within P) {value : Value} {pending : List Expr}
    (all : ∀ ref ∈ Expr.refsOf pending, P ref) (waiting : ∀ ref ∈ below.refs, P ref) :
    (Config.print state line value pending below).Within P := by
  unfold Config.print
  split
  · rename_i after written
    cases congrArg Prod.fst written
    have kept : State.Within P (state.writeLine value.render).1 := within
    exact printNext kept all waiting
  · rename_i after written
    cases congrArg Prod.fst written
    exact ⟨within, waiting⟩

theorem chooseBranch (within : state.Within P) {condition : Value} {whenTrue : Stmt}
    {whenFalse : Option Stmt} (trueAll : ∀ ref ∈ whenTrue.refs, P ref)
    (falseAll : ∀ ref ∈ Stmt.refs? whenFalse, P ref) (waiting : ∀ ref ∈ below.refs, P ref) :
    (Config.chooseBranch state condition whenTrue whenFalse below).Within P := by
  unfold Config.chooseBranch
  split
  · exact ⟨within, holds_append trueAll waiting⟩
  · split
    · exact ⟨within, holds_append falseAll waiting⟩
    · exact ⟨within, waiting⟩

theorem beginRound (within : state.Within P) {loop : Loop} (all : ∀ ref ∈ loop.refs, P ref)
    (waiting : ∀ ref ∈ below.refs, P ref) : (Config.beginRound state loop below).Within P := by
  rcases loop with ⟨condition, increment, body⟩
  rcases List.forall_mem_append.mp all with ⟨conditionAll, rest⟩
  cases condition with
  | some condition => exact ⟨within, holds_append conditionAll (holds_append all waiting)⟩
  | none =>
      rcases List.forall_mem_append.mp rest with ⟨_, bodyAll⟩
      exact ⟨within, holds_append bodyAll (holds_append all waiting)⟩

theorem endRound (within : state.Within P) {loop : Loop} (all : ∀ ref ∈ loop.refs, P ref)
    (waiting : ∀ ref ∈ below.refs, P ref) : (Config.endRound state loop below).Within P := by
  unfold Config.endRound
  split
  · rename_i increment found
    rcases List.forall_mem_append.mp all with ⟨_, rest⟩
    rcases List.forall_mem_append.mp rest with ⟨incrementAll, _⟩
    rw [found] at incrementAll
    exact ⟨within, holds_append incrementAll (holds_append all waiting)⟩
  · exact beginRound within all waiting

theorem execute (within : state.Within P) {s : Stmt} (all : ∀ ref ∈ s.refs, P ref)
    (waiting : ∀ ref ∈ below.refs, P ref) : (Config.execute state s below).Within P := by
  cases s with
  | expression value => exact ⟨within, holds_append all waiting⟩
  | print line values => exact printNext within all waiting
  | declare target initializer =>
      cases initializer with
      | none =>
          have nilAll : ∀ ref ∈ Value.nil.refs, P ref := nofun
          exact ⟨within.define nilAll target.name, waiting⟩
      | some value => exact ⟨within, holds_append all waiting⟩
  | block body => exact ⟨within.enterScope _, holds_append all waiting⟩
  | branch condition whenTrue whenFalse =>
      rcases List.forall_mem_append.mp all with ⟨front, falseAll⟩
      rcases List.forall_mem_append.mp front with ⟨conditionAll, trueAll⟩
      exact ⟨within, holds_append conditionAll (holds_append trueAll (holds_append falseAll waiting))⟩
  | whileLoop condition body => exact beginRound within all waiting
  | forLoop first condition increment body =>
      rcases List.forall_mem_append.mp all with ⟨front, bodyAll⟩
      rcases List.forall_mem_append.mp front with ⟨front, incrementAll⟩
      rcases List.forall_mem_append.mp front with ⟨firstAll, conditionAll⟩
      have loopAll : ∀ ref ∈ (Loop.mk condition increment body).refs, P ref :=
        holds_append conditionAll (holds_append incrementAll bodyAll)
      cases first with
      | none => exact beginRound (within.enterScope _) loopAll waiting
      | some first => exact ⟨within.enterScope _, holds_append firstAll (holds_append loopAll waiting)⟩
  | function target parameters body =>
      have closureAll : ∀ ref ∈ (Value.function state.identity
          (.closure ⟨target.name, parameters, body, state.scope⟩)).refs, P ref := all
      exact ⟨within.define closureAll target.name, waiting⟩
  | giveBack line value =>
      cases value with
      | none => exact ⟨within, waiting⟩
      | some value => exact ⟨within, holds_append all waiting⟩

theorem resumeValue (within : state.Within P) {value : Value} (all : ∀ ref ∈ value.refs, P ref)
    (waiting : ∀ ref ∈ stack.refs, P ref) : (Config.resumeValue state value stack).Within P := by
  cases stack with
  | bottom | giveBack => exact ⟨within, holds_append all waiting⟩
  | unary => exact deliver within (fun _ => UnaryOp.isClosure_apply) waiting
  | binaryLeft =>
      rcases List.forall_mem_append.mp waiting with ⟨first, rest⟩
      exact ⟨within, holds_append first (holds_append all rest)⟩
  | binaryRight => exact deliver within (fun _ => BinaryOp.isClosure_apply) (List.forall_mem_append.mp waiting).2
  | logical op right below =>
      rw [Config.resumeValue]
      rcases List.forall_mem_append.mp waiting with ⟨first, rest⟩
      split
      · exact ⟨within, holds_append all rest⟩
      · exact ⟨within, waiting⟩
  | assign ref target below =>
      rw [Config.resumeValue, state.assign_eq]
      have rest := (List.forall_mem_cons.mp waiting).2
      cases state.writeScope ref target with
      | ok holder => exact ⟨Heap.All.define within all _ _, holds_append all rest⟩
      | error => exact ⟨within, rest⟩
  | callee =>
      rcases List.forall_mem_append.mp waiting with ⟨first, rest⟩
      exact evaluateArguments within all (List.forall_mem_nil _) first rest
  | argument =>
      rcases List.forall_mem_append.mp waiting with ⟨calleeAll, rest⟩
      rcases List.forall_mem_append.mp rest with ⟨doneAll, rest⟩
      rcases List.forall_mem_append.mp rest with ⟨pendingAll, rest⟩
      refine evaluateArguments within calleeAll ?_ pendingAll rest
      rw [Value.refsOf, List.flatMap_cons]
      exact holds_append all doneAll
  | discard => exact ⟨within, waiting⟩
  | print =>
      rcases List.forall_mem_append.mp waiting with ⟨first, rest⟩
      exact print within first rest
  | declare name => exact ⟨within.define all name, waiting⟩
  | branch =>
      rcases List.forall_mem_append.mp waiting with ⟨trueAll, rest⟩
      rcases List.forall_mem_append.mp rest with ⟨falseAll, rest⟩
      exact chooseBranch within trueAll falseAll rest
  | loopCondition loop below =>
      rw [Config.resumeValue]
      rcases List.forall_mem_append.mp waiting with ⟨loopAll, rest⟩
      split
      · have bodyAll := (List.forall_mem_append.mp (List.forall_mem_append.mp loopAll).2).2
        exact ⟨within, holds_append bodyAll waiting⟩
      · exact ⟨within, rest⟩
  | loopIncrement =>
      rcases List.forall_mem_append.mp waiting with ⟨loopAll, rest⟩
      exact beginRound within loopAll rest

theorem resumeFlow (within : state.Within P) {flow : Flow} (all : ∀ ref ∈ flow.refs, P ref)
    (waiting : ∀ ref ∈ below.refs, P ref) : (Config.resumeFlow state flow below).Within P := by
  match below, waiting with
  | .bottom, waiting | .leaveScope _ _, waiting => exact ⟨within, holds_append all waiting⟩
  | .sequence _ _, waiting =>
      cases flow with
      | normal => exact ⟨within, waiting⟩
      | returned value => exact ⟨within, holds_append all (List.forall_mem_append.mp waiting).2⟩
  | .loopStart _ _, waiting =>
      rcases List.forall_mem_append.mp waiting with ⟨loopAll, rest⟩
      exact beginRound within loopAll rest
  | .loopBody _ _, waiting =>
      rcases List.forall_mem_append.mp waiting with ⟨loopAll, rest⟩
      cases flow with
      | normal => exact endRound within loopAll rest
      | returned value => exact ⟨within, holds_append all rest⟩
  | .leaveCall _ _, waiting =>
      refine ⟨within, holds_append ?_ waiting⟩
      cases flow with
      | normal => nofun
      | returned value => exact all

theorem unwindValue (within : state.Within P) {failure : Failure}
    (waiting : ∀ ref ∈ stack.refs, P ref) : (Config.unwindValue state failure stack).Within P := by
  refine ⟨?_, fun ref member => waiting ref ?_⟩
  · cases stack <;> exact within
  · cases stack <;> first
      | exact member
      | exact List.mem_cons_of_mem _ member
      | exact List.mem_append_right _ member
      | exact List.mem_append_right _ (List.mem_append_right _ member)
      | exact List.mem_append_right _ (List.mem_append_right _ (List.mem_append_right _ member))

theorem unwindFlow (within : state.Within P) {failure : Failure}
    (waiting : ∀ ref ∈ below.refs, P ref) : (Config.unwindFlow state failure below).Within P := by
  refine ⟨?_, fun ref member => waiting ref ?_⟩
  · cases below <;> exact within
  · cases below <;> first
      | exact member
      | exact List.mem_append_right _ member

/-- A step makes up no new references. -/
theorem step {config : Config} (within : config.Within P) : config.step.Within P := by
  rcases config with ⟨state, focus⟩
  rcases within with ⟨within, all⟩
  cases focus with
  | executeAll ss stack =>
      cases ss with
      | nil => exact ⟨within, all⟩
      | cons first rest =>
          refine ⟨within, ?_⟩
          change ∀ ref ∈ first.refs ++ (Stmt.refsOf rest ++ stack.refs), P ref
          rw [← List.append_assoc]
          exact all
  | unwindValue failure stack => exact unwindValue within all
  | unwindFlow failure stack => exact unwindFlow within all
  | evaluate e stack =>
      rcases List.forall_mem_append.mp all with ⟨first, rest⟩
      exact evaluate within first rest
  | value value stack =>
      rcases List.forall_mem_append.mp all with ⟨first, rest⟩
      exact resumeValue within first rest
  | execute s stack =>
      rcases List.forall_mem_append.mp all with ⟨first, rest⟩
      exact execute within first rest
  | flow flow stack =>
      rcases List.forall_mem_append.mp all with ⟨first, rest⟩
      exact resumeFlow within first rest

theorem iterate_step {config : Config} (within : config.Within P) (n : Nat) :
    (Config.step^[n] config).Within P := by
  induction n with
  | zero => exact within
  | succ n inductionHypothesis =>
      rw [Function.iterate_succ_apply']
      exact inductionHypothesis.step

end Config.Within

end ScopedScript
