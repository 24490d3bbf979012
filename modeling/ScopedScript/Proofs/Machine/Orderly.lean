import ScopedScript.Proofs.Grammar.Ladder
import ScopedScript.Proofs.Machine.Mentions
import ScopedScript.Proofs.Machine.Returns
import ScopedScript.Proofs.Scoping.ScopeTrees
namespace ScopedScript

/-!
# What a running program holds

A running program holds scopes, namely the current one, those that it will go back to, and those that its
functions remember; and it holds code, namely what is left to execute and the bodies of its functions.  It
is orderly when the scopes are on the heap, the code is what the grammar has, and every `return` in code
that is left finds a call below, with no `for` on the way that is only about to begin.

A step keeps a running program orderly.  The grammar matters at one point: what a `for` begins with is a
declaration or an expression, so that no `return` can come from there.
-/

/-- Whether a `return` goes down to a call.  A `for` that is about to begin would not let it pass. -/
def FlowStack.takesReturn : FlowStack → Bool
  | .bottom | .loopStart _ _ => false
  | .sequence _ below | .loopBody _ below | .leaveScope _ below => below.takesReturn
  | .leaveCall _ _ => true

/-- A statement of the grammar may be executed here: if it has a `return`, that goes down to a call. -/
def FlowStack.Accepts (below : FlowStack) (s : Stmt) : Prop :=
  s.WellFormed ∧ (s.returns → below.takesReturn)

/-- Statements of the grammar may be executed here one after another. -/
def FlowStack.AcceptsAll (below : FlowStack) (ss : List Stmt) : Prop :=
  Stmt.AllWellFormed ss ∧ (Stmt.returnsAny ss → below.takesReturn)

/-- The scope that a closure remembers is on the heap, and its body is what the grammar has. -/
def Closure.Orderly (bound : ScopeId) (closure : Closure) : Prop :=
  closure.scope < bound ∧ Stmt.AllWellFormed closure.body

/-- If a value is a closure, that is orderly. -/
def Value.Orderly (bound : ScopeId) : Value → Prop
  | .function _ (.closure closure) => closure.Orderly bound
  | _ => True

mutual

/-- What is held by what waits for a value. -/
def ValueStack.Orderly (bound : ScopeId) : ValueStack → Prop
  | .bottom => True
  | .unary _ _ below | .binaryLeft _ _ _ below | .logical _ _ below | .assign _ _ below
  | .callee _ _ below => below.Orderly bound
  | .binaryRight _ _ left below => left.Orderly bound ∧ below.Orderly bound
  | .argument _ callee done _ below =>
    callee.Orderly bound ∧ (∀ value ∈ done, value.Orderly bound) ∧ below.Orderly bound
  | .discard below | .print _ _ below | .declare _ below => below.Orderly bound
  | .branch whenTrue whenFalse below =>
    below.Accepts whenTrue ∧ (∀ other ∈ whenFalse, below.Accepts other) ∧ below.Orderly bound
  | .loopCondition loop below | .loopIncrement loop below => below.Accepts loop.body ∧ below.Orderly bound
  | .giveBack below => below.takesReturn = true ∧ below.Orderly bound

/-- What is held by what waits for the end of a statement. -/
def FlowStack.Orderly (bound : ScopeId) : FlowStack → Prop
  | .bottom => True
  | .sequence rest below => below.AcceptsAll rest ∧ below.Orderly bound
  | .loopStart loop below | .loopBody loop below => below.Accepts loop.body ∧ below.Orderly bound
  | .leaveScope outer below => outer < bound ∧ below.Orderly bound
  | .leaveCall caller below => caller < bound ∧ below.Orderly bound

end

/-- What is held by what happens next. -/
def Focus.Orderly (bound : ScopeId) : Focus → Prop
  | .evaluate _ stack | .unwindValue _ stack => stack.Orderly bound
  | .value result stack => result.Orderly bound ∧ stack.Orderly bound
  | .execute s below => below.Accepts s ∧ below.Orderly bound
  | .executeAll ss below => below.AcceptsAll ss ∧ below.Orderly bound
  | .flow .normal below | .unwindFlow _ below => below.Orderly bound
  | .flow (.returned result) below => result.Orderly bound ∧ below.takesReturn = true ∧ below.Orderly bound

/-- What is held by the scopes, and the current one. -/
structure State.Orderly (state : State) : Prop where
  nested : state.heap.Nested
  present : state.scope < state.heap.nextId
  values : state.heap.All (Value.Orderly state.heap.nextId)

/-- All that a running program holds. -/
def Config.Orderly (config : Config) : Prop :=
  config.state.Orderly ∧ config.focus.Orderly config.state.heap.nextId

/-! ## With more scopes on the heap -/

section More

variable {bound more : ScopeId} (atLeast : bound ≤ more)
include atLeast

theorem Value.Orderly.mono {value : Value} (orderly : value.Orderly bound) : value.Orderly more := by
  cases value with
  | function identity callable =>
      cases callable with
      | closure closure => exact ⟨Nat.lt_of_lt_of_le orderly.1 atLeast, orderly.2⟩
      | builtin builtin => trivial
  | _ => trivial

mutual

theorem ValueStack.Orderly.mono : ∀ {stack : ValueStack}, stack.Orderly bound → stack.Orderly more
  | .bottom, _ => trivial
  | .unary _ _ below, orderly | .binaryLeft _ _ _ below, orderly | .logical _ _ below, orderly
  | .assign _ _ below, orderly | .callee _ _ below, orderly =>
      (show below.Orderly bound from orderly).mono
  | .binaryRight _ _ _ _, orderly => ⟨orderly.1.mono atLeast, orderly.2.mono⟩
  | .argument _ _ _ _ _, orderly =>
      ⟨orderly.1.mono atLeast, fun value member => (orderly.2.1 value member).mono atLeast, orderly.2.2.mono⟩
  | .discard below, orderly | .print _ _ below, orderly | .declare _ below, orderly =>
      (show below.Orderly bound from orderly).mono
  | .branch _ _ _, orderly => ⟨orderly.1, orderly.2.1, orderly.2.2.mono⟩
  | .loopCondition _ _, orderly | .loopIncrement _ _, orderly | .giveBack _, orderly =>
      ⟨orderly.1, orderly.2.mono⟩

theorem FlowStack.Orderly.mono : ∀ {below : FlowStack}, below.Orderly bound → below.Orderly more
  | .bottom, _ => trivial
  | .sequence _ _, orderly | .loopStart _ _, orderly | .loopBody _ _, orderly => ⟨orderly.1, orderly.2.mono⟩
  | .leaveScope _ _, orderly | .leaveCall _ _, orderly =>
      ⟨Nat.lt_of_lt_of_le orderly.1 atLeast, orderly.2.mono⟩

end

end More

/-! ## Code in parts -/

namespace FlowStack.Accepts

variable {below : FlowStack}

theorem branch {condition : Expr} {whenTrue : Stmt} {whenFalse : Option Stmt}
    (accepts : below.Accepts (.branch condition whenTrue whenFalse)) :
    below.Accepts whenTrue ∧ ∀ other ∈ whenFalse, below.Accepts other := by
  rcases accepts with ⟨⟨_, trueFormed, _, _, falseFormed⟩, caught⟩
  rw [Stmt.returns, Bool.or_eq_true] at caught
  refine ⟨⟨trueFormed, fun returns => caught (.inl returns)⟩, ?_⟩
  rintro other ⟨⟩
  exact ⟨falseFormed.1, fun returns => caught (.inr returns)⟩

/-- The body of a loop, and what a `for` begins with: no `return` comes from there. -/
theorem forLoop {first : Option Stmt} {condition increment : Option Expr} {body : Stmt}
    (accepts : below.Accepts (.forLoop first condition increment body)) :
    below.Accepts body ∧ ∀ initializer ∈ first, initializer.WellFormed ∧ initializer.returns = false := by
  rcases accepts with ⟨⟨firstFormed, _, _, bodyFormed, _⟩, caught⟩
  rw [Stmt.returns, Bool.or_eq_true] at caught
  refine ⟨⟨bodyFormed, fun returns => caught (.inr returns)⟩, ?_⟩
  rintro initializer ⟨⟩
  cases initializer with
  | declare target value => exact ⟨firstFormed, rfl⟩
  | expression value => exact ⟨firstFormed, rfl⟩
  | _ => exact firstFormed.elim

end FlowStack.Accepts

theorem FlowStack.AcceptsAll.cons {below : FlowStack} {first : Stmt} {rest : List Stmt}
    (accepts : below.AcceptsAll (first :: rest)) : below.Accepts first ∧ below.AcceptsAll rest := by
  rcases accepts with ⟨⟨firstFormed, restFormed⟩, caught⟩
  rw [Stmt.returnsAny, Bool.or_eq_true] at caught
  exact ⟨⟨firstFormed, fun returns => caught (.inl returns)⟩,
    restFormed, fun returns => caught (.inr returns)⟩

theorem Value.orderly_of_not_closure {bound : ScopeId} {value : Value} (notClosure : value.isClosure = false) :
    value.Orderly bound := by
  cases value with
  | function identity callable =>
      cases callable with
      | closure closure => cases notClosure
      | builtin builtin => trivial
  | _ => trivial

/-! ## States -/

namespace State.Orderly

variable {state : State}

theorem assign (orderly : state.Orderly) {value : Value} (stored : value.Orderly state.heap.nextId)
    (holder : ScopeId) (name : String) :
    State.Orderly { state with heap := state.heap.define holder name value } := by
  refine ⟨orderly.nested.define .., ?_, ?_⟩
  · rw [Heap.nextId_define]
    exact orderly.present
  · rw [Heap.nextId_define]
    exact orderly.values.define stored holder name

theorem define (orderly : state.Orderly) {value : Value} (stored : value.Orderly state.heap.nextId)
    (name : String) : (state.define name value).Orderly :=
  orderly.assign stored state.scope name

theorem enterScope (orderly : state.Orderly) {outer : ScopeId} (present : outer < state.heap.nextId) :
    (state.enterScope outer).Orderly := by
  refine ⟨orderly.nested.create present, ?_, ?_⟩
  · change state.heap.nextId < (state.heap.create (some outer)).nextId
    rw [Heap.nextId_create]
    exact Nat.lt_succ_self _
  · refine (orderly.values.create (some outer)).imp fun value held => held.mono ?_
    exact (Heap.Extends.create state.heap (some outer)).older

theorem enterCall (orderly : state.Orderly) {closure : Closure} {arguments : List Value}
    (present : closure.scope < state.heap.nextId)
    (held : ∀ value ∈ arguments, value.Orderly state.heap.nextId) :
    (state.enterCall closure arguments).Orderly := by
  have deeper : State.Orderly { state with depth := state.depth + 1 } := ⟨orderly.1, orderly.2, orderly.3⟩
  -- The values were there before the new scope was, and binding them adds none.
  have bound : (state.enterCall closure arguments).Orderly ∧
      state.heap.nextId ≤ (state.enterCall closure arguments).heap.nextId :=
    bindParameters_of_define (P := fun after => after.Orderly ∧ state.heap.nextId ≤ after.heap.nextId)
      (fun name value member ⟨orderly, atLeast⟩ => ⟨orderly.define ((held value member).mono atLeast) name,
        Nat.le_trans atLeast (Heap.Extends.define ..).older⟩)
      closure.parameters ⟨deeper.enterScope present, (Heap.Extends.create state.heap _).older⟩
  exact bound.1

theorem leave (orderly : state.Orderly) {outer : ScopeId} (present : outer < state.heap.nextId) (depth : Nat) :
    State.Orderly { state with scope := outer, depth } :=
  ⟨orderly.nested, present, orderly.values⟩

end State.Orderly

/-! ## Steps -/

namespace Config.Orderly

variable {state : State} {line : Nat} {stack : ValueStack} {below : FlowStack}

theorem deliver (orderly : state.Orderly) {result : Except RuntimeCause Value}
    (notClosure : ∀ value, result = .ok value → value.isClosure = false)
    (waiting : stack.Orderly state.heap.nextId) : (Config.deliver state line result stack).Orderly := by
  cases result with
  | error cause => exact ⟨orderly, waiting⟩
  | ok value => exact ⟨orderly, Value.orderly_of_not_closure (notClosure value rfl), waiting⟩

theorem evaluate (orderly : state.Orderly) (e : Expr) (waiting : stack.Orderly state.heap.nextId) :
    (Config.evaluate state e stack).Orderly := by
  unfold Config.evaluate
  split
  case h_1 value => exact ⟨orderly, Value.orderly_of_not_closure (by cases value <;> rfl), waiting⟩
  case h_6 =>
    split
    · rename_i found
      exact ⟨orderly, State.holds_of_read orderly.values found, waiting⟩
    · exact ⟨orderly, waiting⟩
  all_goals exact ⟨orderly, waiting⟩

theorem call (orderly : state.Orderly) {callee : Value} {arguments : List Value}
    (called : callee.Orderly state.heap.nextId) (held : ∀ value ∈ arguments, value.Orderly state.heap.nextId)
    (waiting : stack.Orderly state.heap.nextId) :
    (Config.call state line callee arguments stack).Orderly := by
  unfold Config.call
  split
  · split
    · exact ⟨orderly, waiting⟩
    · split
      · exact ⟨orderly, waiting⟩
      · split
        · have ticked : state.tick.Orderly := ⟨orderly.1, orderly.2, orderly.3⟩
          split
          · rename_i applied
            rcases Builtin.isClosure_or_mem_of_apply applied with notClosure | isArgument
            · exact ⟨ticked, Value.orderly_of_not_closure notClosure, waiting⟩
            · exact ⟨ticked, held _ isArgument, waiting⟩
          · exact ⟨ticked, waiting⟩
        · rename_i closure _
          have atLeast := (State.extends_enterCall state closure arguments).older
          exact ⟨orderly.enterCall called.1 held, ⟨called.2, fun _ => rfl⟩,
            Nat.lt_of_lt_of_le orderly.present atLeast, waiting.mono atLeast⟩
  · exact ⟨orderly, waiting⟩

theorem evaluateArguments (orderly : state.Orderly) {callee : Value} {done : List Value}
    (pending : List Expr) (called : callee.Orderly state.heap.nextId)
    (held : ∀ value ∈ done, value.Orderly state.heap.nextId) (waiting : stack.Orderly state.heap.nextId) :
    (Config.evaluateArguments state line callee done pending stack).Orderly := by
  cases pending with
  | nil => exact call orderly called (fun value member => held value (List.mem_reverse.mp member)) waiting
  | cons next rest => exact ⟨orderly, called, held, waiting⟩

theorem printNext (orderly : state.Orderly) (pending : List Expr) (waiting : below.Orderly state.heap.nextId) :
    (Config.printNext state line pending below).Orderly := by
  cases pending <;> exact ⟨orderly, waiting⟩

theorem print (orderly : state.Orderly) (value : Value) (pending : List Expr)
    (waiting : below.Orderly state.heap.nextId) :
    (Config.print state line value pending below).Orderly := by
  have kept : (state.writeLine value.render).1.Orderly := ⟨orderly.1, orderly.2, orderly.3⟩
  unfold Config.print
  split
  · rename_i after written
    cases congrArg Prod.fst written
    exact printNext kept pending waiting
  · rename_i after written
    cases congrArg Prod.fst written
    exact ⟨kept, waiting⟩

theorem chooseBranch (orderly : state.Orderly) (condition : Value) {whenTrue : Stmt} {whenFalse : Option Stmt}
    (trueAccepted : below.Accepts whenTrue) (falseAccepted : ∀ other ∈ whenFalse, below.Accepts other)
    (waiting : below.Orderly state.heap.nextId) :
    (Config.chooseBranch state condition whenTrue whenFalse below).Orderly := by
  unfold Config.chooseBranch
  split
  · exact ⟨orderly, trueAccepted, waiting⟩
  · split
    · exact ⟨orderly, falseAccepted _ rfl, waiting⟩
    · exact ⟨orderly, waiting⟩

theorem beginRound (orderly : state.Orderly) {loop : Loop} (accepted : below.Accepts loop.body)
    (waiting : below.Orderly state.heap.nextId) : (Config.beginRound state loop below).Orderly := by
  unfold Config.beginRound
  split
  · exact ⟨orderly, accepted, waiting⟩
  · exact ⟨orderly, accepted, accepted, waiting⟩

theorem endRound (orderly : state.Orderly) {loop : Loop} (accepted : below.Accepts loop.body)
    (waiting : below.Orderly state.heap.nextId) : (Config.endRound state loop below).Orderly := by
  unfold Config.endRound
  split
  · exact ⟨orderly, accepted, waiting⟩
  · exact beginRound orderly accepted waiting

theorem execute (orderly : state.Orderly) {s : Stmt} (accepted : below.Accepts s)
    (waiting : below.Orderly state.heap.nextId) : (Config.execute state s below).Orderly := by
  have atLeast := (Heap.Extends.create state.heap (some state.scope)).older
  have inside : (FlowStack.leaveScope state.scope below).Orderly
      (state.enterScope state.scope).heap.nextId :=
    ⟨Nat.lt_of_lt_of_le orderly.present atLeast, waiting.mono atLeast⟩
  cases s with
  | expression value => exact ⟨orderly, waiting⟩
  | print line values => exact printNext orderly values waiting
  | declare target initializer =>
      cases initializer with
      | none =>
          have held : Value.Orderly state.heap.nextId .nil := trivial
          exact ⟨orderly.define held target.name, waiting.mono (Heap.Extends.define ..).older⟩
      | some value => exact ⟨orderly, waiting⟩
  | block body => exact ⟨orderly.enterScope orderly.present, accepted, inside⟩
  | branch condition whenTrue whenFalse => exact ⟨orderly, accepted.branch.1, accepted.branch.2, waiting⟩
  | whileLoop condition body =>
      have body : below.Accepts body := ⟨accepted.1.2.1, accepted.2⟩
      exact beginRound orderly body waiting
  | forLoop first condition increment body =>
      rcases accepted.forLoop with ⟨bodyAccepted, firstAccepted⟩
      cases first with
      | none => exact beginRound (orderly.enterScope orderly.present) bodyAccepted inside
      | some first =>
          rcases firstAccepted first rfl with ⟨formed, noReturn⟩
          refine ⟨orderly.enterScope orderly.present, ⟨formed, fun returns => ?_⟩, bodyAccepted, inside⟩
          rw [noReturn] at returns
          cases returns
  | function target parameters body =>
      have stored : Value.Orderly state.heap.nextId (.function state.identity
          (.closure ⟨target.name, parameters, body, state.scope⟩)) := ⟨orderly.present, accepted.1.2⟩
      have defined := orderly.define stored target.name
      exact ⟨⟨defined.1, defined.2, defined.3⟩, waiting.mono (Heap.Extends.define ..).older⟩
  | giveBack line value =>
      cases value with
      | none => exact ⟨orderly, trivial, accepted.2 rfl, waiting⟩
      | some value => exact ⟨orderly, accepted.2 rfl, waiting⟩

theorem resumeValue (orderly : state.Orderly) {value : Value} (held : value.Orderly state.heap.nextId)
    (waiting : stack.Orderly state.heap.nextId) : (Config.resumeValue state value stack).Orderly := by
  cases stack with
  | bottom => exact ⟨orderly, held, waiting⟩
  | unary op line below =>
      have inner : below.Orderly state.heap.nextId := waiting
      exact deliver orderly (fun _ => UnaryOp.isClosure_apply) inner
  | binaryLeft op line right below => exact ⟨orderly, held, waiting⟩
  | binaryRight op line left below => exact deliver orderly (fun _ => BinaryOp.isClosure_apply) waiting.2
  | logical op right below =>
      rw [Config.resumeValue]
      split
      · exact ⟨orderly, held, waiting⟩
      · exact ⟨orderly, waiting⟩
  | assign ref target below =>
      have inner : below.Orderly state.heap.nextId := waiting
      rw [Config.resumeValue, state.assign_eq]
      cases state.writeScope ref target with
      | ok holder =>
          have atLeast := (Heap.Extends.define state.heap holder target.name value).older
          exact ⟨orderly.assign held holder target.name, held.mono atLeast, inner.mono atLeast⟩
      | error => exact ⟨orderly, inner⟩
  | callee line arguments below =>
      have inner : below.Orderly state.heap.nextId := waiting
      exact evaluateArguments orderly arguments held (fun _ member => absurd member List.not_mem_nil) inner
  | argument line callee done pending below =>
      have values := List.forall_mem_cons.mpr ⟨held, waiting.2.1⟩
      exact evaluateArguments orderly pending waiting.1 values waiting.2.2
  | discard below => exact ⟨orderly, waiting⟩
  | print line pending below =>
      have inner : below.Orderly state.heap.nextId := waiting
      exact print orderly value pending inner
  | declare name below =>
      have inner : below.Orderly state.heap.nextId := waiting
      exact ⟨orderly.define held name, inner.mono (Heap.Extends.define ..).older⟩
  | branch whenTrue whenFalse below => exact chooseBranch orderly value waiting.1 waiting.2.1 waiting.2.2
  | loopCondition loop below =>
      rw [Config.resumeValue]
      split
      · exact ⟨orderly, waiting.1, waiting⟩
      · exact ⟨orderly, waiting.2⟩
  | loopIncrement loop below => exact beginRound orderly waiting.1 waiting.2
  | giveBack below => exact ⟨orderly, held, waiting⟩

theorem resumeFlow (orderly : state.Orderly) {flow : Flow}
    (waiting : (Focus.flow flow below).Orderly state.heap.nextId) :
    (Config.resumeFlow state flow below).Orderly := by
  cases flow with
  | normal =>
      cases below with
      | bottom => exact ⟨orderly, waiting⟩
      | sequence rest below => exact ⟨orderly, waiting⟩
      | loopStart loop below => exact beginRound orderly waiting.1 waiting.2
      | loopBody loop below => exact endRound orderly waiting.1 waiting.2
      | leaveScope outer below => exact ⟨orderly.leave waiting.1 state.depth, waiting.2⟩
      | leaveCall caller stack => exact ⟨orderly.leave waiting.1 _, trivial, waiting.2⟩
  | returned value =>
      rcases waiting with ⟨held, caught, waiting⟩
      cases below with
      | bottom | loopStart loop below => cases caught
      | sequence rest below | loopBody loop below => exact ⟨orderly, held, caught, waiting.2⟩
      | leaveScope outer below => exact ⟨orderly.leave waiting.1 state.depth, held, caught, waiting.2⟩
      | leaveCall caller stack => exact ⟨orderly.leave waiting.1 _, held, waiting.2⟩

theorem unwindValue (orderly : state.Orderly) {failure : Failure} (waiting : stack.Orderly state.heap.nextId) :
    (Config.unwindValue state failure stack).Orderly := by
  cases stack <;> first
    | exact ⟨orderly, waiting⟩
    | exact ⟨orderly, waiting.2⟩
    | exact ⟨orderly, waiting.2.2⟩

theorem unwindFlow (orderly : state.Orderly) {failure : Failure} (waiting : below.Orderly state.heap.nextId) :
    (Config.unwindFlow state failure below).Orderly := by
  cases below with
  | bottom => exact ⟨orderly, waiting⟩
  | sequence rest below | loopStart loop below | loopBody loop below => exact ⟨orderly, waiting.2⟩
  | leaveScope outer below => exact ⟨orderly.leave waiting.1 state.depth, waiting.2⟩
  | leaveCall caller stack => exact ⟨orderly.leave waiting.1 _, waiting.2⟩

/-- A step keeps a running program orderly. -/
theorem step {config : Config} (orderly : config.Orderly) : config.step.Orderly := by
  rcases config with ⟨state, focus⟩
  rcases orderly with ⟨orderly, waiting⟩
  cases focus with
  | evaluate e stack => exact evaluate orderly e waiting
  | value value stack => exact resumeValue orderly waiting.1 waiting.2
  | execute s below => exact execute orderly waiting.1 waiting.2
  | executeAll ss below =>
      cases ss with
      | nil => exact ⟨orderly, waiting.2⟩
      | cons first rest => exact ⟨orderly, waiting.1.cons.1, waiting.1.cons.2, waiting.2⟩
  | flow flow below => exact resumeFlow orderly waiting
  | unwindValue failure stack => exact unwindValue orderly waiting
  | unwindFlow failure below => exact unwindFlow orderly waiting

theorem iterate_step {config : Config} (orderly : config.Orderly) (n : Nat) :
    (Config.step^[n] config).Orderly := by
  induction n with
  | zero => exact orderly
  | succ n inductionHypothesis =>
      rw [Function.iterate_succ_apply']
      exact inductionHypothesis.step

end Config.Orderly

end ScopedScript
