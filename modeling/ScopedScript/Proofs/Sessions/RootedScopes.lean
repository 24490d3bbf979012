import Mathlib
import ScopedScript.Proofs.Machine.Orderly
import ScopedScript.Proofs.Scoping.AccessSafety
import ScopedScript.Proofs.Sessions.Lives
namespace ScopedScript

/-!
# The scopes of a session

In every session and at every step of its units, whether they succeed or fail later on, the scopes form a tree
below the one global scope.  The current scope is in that tree, and so is the scope of every closure, whether
it is bound in some scope, waits as an argument or operand, or is on its way as a value.  Whatever is run
afterwards, the links stay the same, and a name that is bound in a scope stays bound there.
-/

/-! ## All values that are held -/

mutual

/-- The values held by what waits for a value. -/
def ValueStack.values : ValueStack → List Value
  | .bottom => []
  | .unary _ _ below | .binaryLeft _ _ _ below | .logical _ _ below | .assign _ _ below
  | .callee _ _ below => below.values
  | .binaryRight _ _ left below => left :: below.values
  | .argument _ callee done _ below => callee :: (done ++ below.values)
  | .discard below | .print _ _ below | .declare _ below | .branch _ _ below | .loopCondition _ below
  | .loopIncrement _ below | .giveBack below => below.values

/-- The values held by what waits for the end of a statement. -/
def FlowStack.values : FlowStack → List Value
  | .bottom => []
  | .sequence _ below | .loopStart _ below | .loopBody _ below | .leaveScope _ below => below.values
  | .leaveCall _ below => below.values

end

/-- The value that a flow brings. -/
def Flow.values : Flow → List Value
  | .normal => []
  | .returned result => [result]

/-- The values held by what happens next and by everything that waits for it. -/
def Focus.values : Focus → List Value
  | .evaluate _ stack | .unwindValue _ stack => stack.values
  | .value result stack => result :: stack.values
  | .execute _ below | .executeAll _ below | .unwindFlow _ below => below.values
  | .flow ended below => ended.values ++ below.values

section Held

variable {bound : ScopeId}

mutual

theorem ValueStack.Orderly.values : ∀ {stack : ValueStack}, stack.Orderly bound →
    ∀ value ∈ stack.values, value.Orderly bound
  | .bottom, _ => nofun
  | .unary _ _ below, orderly | .binaryLeft _ _ _ below, orderly | .logical _ _ below, orderly
  | .assign _ _ below, orderly | .callee _ _ below, orderly =>
      (show below.Orderly bound from orderly).values
  | .binaryRight _ _ _ _, orderly => List.forall_mem_cons.mpr ⟨orderly.1, orderly.2.values⟩
  | .argument _ _ _ _ _, orderly =>
      List.forall_mem_cons.mpr ⟨orderly.1, List.forall_mem_append.mpr ⟨orderly.2.1, orderly.2.2.values⟩⟩
  | .discard below, orderly | .print _ _ below, orderly | .declare _ below, orderly =>
      (show below.Orderly bound from orderly).values
  | .branch _ _ _, orderly => orderly.2.2.values
  | .loopCondition _ _, orderly | .loopIncrement _ _, orderly | .giveBack _, orderly => orderly.2.values

theorem FlowStack.Orderly.values : ∀ {below : FlowStack}, below.Orderly bound →
    ∀ value ∈ below.values, value.Orderly bound
  | .bottom, _ => nofun
  | .sequence _ _, orderly | .loopStart _ _, orderly | .loopBody _ _, orderly | .leaveScope _ _, orderly
  | .leaveCall _ _, orderly => orderly.2.values

end

theorem Focus.Orderly.values {focus : Focus} (orderly : focus.Orderly bound) :
    ∀ value ∈ focus.values, value.Orderly bound := by
  cases focus with
  | evaluate e stack | unwindValue failure stack =>
      have waiting : stack.Orderly bound := orderly
      exact waiting.values
  | value result stack => exact List.forall_mem_cons.mpr ⟨orderly.1, orderly.2.values⟩
  | execute s below | executeAll ss below => exact orderly.2.values
  | unwindFlow failure below =>
      have waiting : below.Orderly bound := orderly
      exact waiting.values
  | flow ended below =>
      cases ended with
      | normal =>
          have waiting : below.Orderly bound := orderly
          exact waiting.values
      | returned result => exact List.forall_mem_cons.mpr ⟨orderly.1, orderly.2.2.values⟩

end Held

/-! ## Rooted states and programs -/

/-- If a value is a closure, the links from its scope end in the global one. -/
def Value.Rooted (heap : Heap Value) : Value → Prop
  | .function _ (.closure closure) => heap.Rooted closure.scope
  | _ => True

/-- The scopes form a tree below the global one, and all those that are in use are in it. -/
structure State.Rooted (state : State) : Prop where
  nested : state.heap.Nested
  current : state.heap.Rooted state.scope
  stored : state.heap.All (Value.Rooted state.heap)

/-- The scopes of a running program are rooted, those of the values that are held included. -/
def Config.Rooted (config : Config) : Prop :=
  config.state.Rooted ∧ ∀ value ∈ config.focus.values, value.Rooted config.state.heap

theorem Value.Orderly.rooted {heap : Heap Value} (nested : heap.Nested) {value : Value}
    (orderly : value.Orderly heap.nextId) : value.Rooted heap := by
  cases value with
  | function identity callable =>
      cases callable with
      | closure closure => exact nested.rooted _ orderly.1
      | builtin builtin => trivial
  | _ => trivial

theorem State.Orderly.rooted {state : State} (orderly : state.Orderly) : state.Rooted :=
  ⟨orderly.nested, orderly.nested.rooted _ orderly.present,
    orderly.values.imp fun _ held => held.rooted orderly.nested⟩

theorem Config.Orderly.rooted {config : Config} (orderly : config.Orderly) : config.Rooted :=
  ⟨orderly.1.rooted, fun value member => (orderly.2.values value member).rooted orderly.1.nested⟩

/-! ## Sessions -/

theorem State.orderly_initial (host : Host) (sink : Sink) (builtins : List Builtin) :
    (State.initial host sink builtins).Orderly := by
  have fresh : State.Orderly { host, sink, heap := Heap.empty.create none, scope := globalScope } := by
    refine ⟨⟨Nat.zero_lt_one, rfl, fun scope notRoot inside => ?_⟩, Nat.zero_lt_one, Heap.All.empty.create none⟩
    exact absurd (Nat.lt_one_iff.mp inside) notRoot
  unfold initial
  generalize State.mk host _ _ _ _ _ sink = state at fresh
  induction builtins generalizing state with
  | nil => exact fresh
  | cons builtin builtins inductionHypothesis =>
      have builtinHeld : Value.Orderly state.heap.nextId (.function state.identity (.builtin builtin)) :=
        trivial
      have defined := fresh.define builtinHeld builtin.name
      exact inductionHypothesis _ ⟨defined.1, defined.2, defined.3⟩

namespace Session

variable {session after : Session} {source : String} {program : List Stmt} {fuel : Nat}

/-- An accepted unit is orderly at every step. -/
theorem orderly_of_accepted (orderly : session.state.Orderly)
    (accepted : session.accept source = (after, .ok program)) (n : Nat) :
    (Config.step^[n] (after.state.launch program)).Orderly := by
  rcases accept_ok_iff.mp accepted with ⟨next, references, read, resolved, same⟩
  have launched : (after.state.launch program).Orderly := by
    refine ⟨?_, ⟨(readProgram_ok read).2, fun returns => ?_⟩, trivial⟩
    · rw [same]
      exact ⟨orderly.1, orderly.2, orderly.3⟩
    · rw [returnsAny_of_resolved resolved] at returns
      cases returns
  exact launched.iterate_step n

theorem orderly_run (orderly : session.state.Orderly) : (session.run fuel source).1.state.Orderly := by
  rcases read : session.accept source with ⟨after, error | program⟩
  · rw [run_of_rejected read, (of_rejected read).1]
    exact orderly
  · rw [run_of_accepted read]
    exact (orderly_of_accepted orderly read fuel).1

theorem Reached.orderly (reached : session.Reached) : session.state.Orderly := by
  induction reached with
  | start host sink builtins => exact State.orderly_initial host sink builtins
  | run _ fuel source _ inductionHypothesis => exact orderly_run inductionHypothesis

/-- A later session: more units have been run, and each of them has ended. -/
inductive Later (session : Session) : Session → Prop where
  | same : Later session session
  | run {middle : Session} (later : Later session middle) (fuel : Nat) (source : String)
      (ended : (middle.run fuel source).2 ≠ .unfinished) : Later session (middle.run fuel source).1

theorem heap_of_accepted (accepted : session.accept source = (after, .ok program)) :
    after.state.heap = session.state.heap := by
  rcases accept_ok_iff.mp accepted with ⟨_, _, _, _, same⟩
  rw [same]

/-- Whatever step of a unit is looked at, its scopes are still there when the unit has ended. -/
theorem extends_run_of_accepted (accepted : session.accept source = (after, .ok program))
    (ended : (session.run fuel source).2 ≠ .unfinished) (n : Nat) :
    (Config.step^[n] (after.state.launch program)).state.heap.Extends
      (session.run fuel source).1.state.heap := by
  rw [run_of_accepted accepted] at ended ⊢
  rcases Nat.le_total n fuel with before | beyond
  · exact Config.extends_iterate_step _ before
  · rw [Config.iterate_step_eq_of_le (isDone_of_concluded ended) beyond]
    exact .refl _

theorem extends_run (ended : (session.run fuel source).2 ≠ .unfinished) :
    session.state.heap.Extends (session.run fuel source).1.state.heap := by
  rcases read : session.accept source with ⟨after, error | program⟩
  · rw [run_of_rejected read, (of_rejected read).1]
    exact .refl _
  · have grown := extends_run_of_accepted read ended 0
    rw [← heap_of_accepted read]
    exact grown

theorem Later.extends {later : Session} (isLater : session.Later later) :
    session.state.heap.Extends later.state.heap := by
  induction isLater with
  | same => exact .refl _
  | run _ fuel source ended inductionHypothesis => exact inductionHypothesis.trans (extends_run ended)

end Session

/-- The scopes of a session form one tree, at every step of every unit.  What a heap has, the heaps of all
later steps and of all later units have with the same links, and with the same names at least. -/
theorem scopes_rooted {session : Session} (reached : session.Reached) :
    session.state.Rooted ∧
    ∀ source program after, session.accept source = (after, .ok program) →
      after.state.heap = session.state.heap ∧
      (∀ n, (Config.step^[n] (after.state.launch program)).Rooted) ∧
      (∀ n m, n ≤ m → (Config.step^[n] (after.state.launch program)).state.heap.Extends
        (Config.step^[m] (after.state.launch program)).state.heap) ∧
      ∀ n fuel, (session.run fuel source).2 ≠ .unfinished →
        ∀ later, (session.run fuel source).1.Later later →
          (Config.step^[n] (after.state.launch program)).state.heap.Extends later.state.heap := by
  refine ⟨reached.orderly.rooted, fun source program after accepted => ?_⟩
  refine ⟨Session.heap_of_accepted accepted, fun n => ?_, fun n m later => ?_,
    fun n fuel ended last later => ?_⟩
  · exact (Session.orderly_of_accepted reached.orderly accepted n).rooted
  · exact Config.extends_iterate_step _ later
  · exact (Session.extends_run_of_accepted accepted ended n).trans later.extends

open Session in
/-- A unit failed half-way and left a closure behind.  The next one calls it. -/
theorem scopes_rooted_afterFailure :
    let session := ((start {} {} []).run 60
      "fun f() \x7b var a = \"x\"; fun g() \x7b return a; \x7d return g; \x7d var g = f(); nil();").1
    let after := (session.accept "print g();").1
    session.Reached ∧ session.state.Rooted ∧
      session.accept "print g();" = (after, .ok [.print 1 [.call (.variable 3 ⟨"g", 1⟩) 1 []]]) ∧
      (session.run 60 "print g();").2 ≠ .unfinished ∧
      (∀ n, (Config.step^[n] (after.state.launch
        [.print 1 [.call (.variable 3 ⟨"g", 1⟩) 1 []]])).Rooted) ∧
      ∀ later, (session.run 60 "print g();").1.Later later → ∀ n, (Config.step^[n] (after.state.launch
        [.print 1 [.call (.variable 3 ⟨"g", 1⟩) 1 []]])).state.heap.Extends later.state.heap := by
  intro session after
  have failed : ((start {} {} []).run 60
      "fun f() \x7b var a = \"x\"; fun g() \x7b return a; \x7d return g; \x7d var g = f(); nil();").2 =
        .failed (.runtime ⟨.notCallable, 1⟩) := by
    simp only [Session.run, Session.accept, Session.read, readProgram, tokenize_eq]
    cbv
  have reached : session.Reached := by
    refine .run (.start {} {} []) 60 _ ?_
    rw [failed]
    intro impossible
    cases impossible
  have accepted : session.accept "print g();" =
      (after, .ok [.print 1 [.call (.variable 3 ⟨"g", 1⟩) 1 []]]) := by
    have read : (session.accept "print g();").2 =
        .ok [.print 1 [.call (.variable 3 ⟨"g", 1⟩) 1 []]] := by
      unfold session
      simp only [Session.run, Session.accept, Session.read, readProgram, tokenize_eq]
      cbv
    exact Prod.ext rfl read
  have ended : (session.run 60 "print g();").2 ≠ .unfinished := by
    have finished : (session.run 60 "print g();").2 = .finished := by
      unfold session
      simp only [Session.run, Session.accept, Session.read, readProgram, tokenize_eq]
      cbv
    rw [finished]
    intro impossible
    cases impossible
  rcases scopes_rooted reached with ⟨rooted, units⟩
  rcases units _ _ after accepted with ⟨-, stepwise, -, lasting⟩
  exact ⟨reached, rooted, accepted, ended, stepwise, fun later isLater n => lasting n 60 ended later isLater⟩

end ScopedScript
