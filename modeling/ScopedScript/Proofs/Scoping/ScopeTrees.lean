import ScopedScript.Proofs.Machine.Changes
import ScopedScript.Proofs.Machine.Runs
namespace ScopedScript

/-!
# Scopes form a tree that only grows

Every scope but the global one is created inside an older one, and no operation changes the link of a scope
that is there or takes a name out of it.  So the links form a tree with the global scope as its root, and a
heap that has become another one is still part of it.
-/

namespace Heap

variable {α : Type}

/-- The scope that a scope was created inside of. -/
def link? (heap : Heap α) (scope : ScopeId) : Option ScopeId := heap.scopes[scope]?.bind Scope.enclosing

/-- The links outward from a scope end in the global scope. -/
inductive Rooted (heap : Heap α) : ScopeId → Prop where
  | globals : Rooted heap globalScope
  | inside {scope outer : ScopeId} (link : heap.link? scope = some outer) (rooted : Rooted heap outer) :
      Rooted heap scope

/-- There is a global scope inside of no other, and every other scope is inside of an older one. -/
structure Nested (heap : Heap α) : Prop where
  root : globalScope < heap.nextId
  outermost : heap.link? globalScope = none
  inside : ∀ scope, scope ≠ globalScope → scope < heap.nextId →
    ∃ outer < scope, heap.link? scope = some outer

/-- A later heap has the scopes of an earlier one, with the same links and with their names. -/
structure Extends (heap later : Heap α) : Prop where
  older : heap.nextId ≤ later.nextId
  links : ∀ scope < heap.nextId, later.link? scope = heap.link? scope
  names : ∀ scope name, (heap.lookup? scope name).isSome → (later.lookup? scope name).isSome

variable (heap : Heap α)

@[simp] theorem link?_define (scope other : ScopeId) (name : String) (value : α) :
    (heap.define scope name value).link? other = heap.link? other := by
  unfold link? define
  rw [Array.getElem?_modify]
  split
  · cases heap.scopes[other]? <;> rfl
  · rfl

theorem link?_create (enclosing : Option ScopeId) (other : ScopeId) :
    (heap.create enclosing).link? other = if other = heap.nextId then enclosing else heap.link? other := by
  unfold link? create nextId
  rw [Array.getElem?_push]
  split <;> rfl

variable {heap} {middle later : Heap α}

/-! ## The tree -/

namespace Nested

theorem define (nested : heap.Nested) (scope : ScopeId) (name : String) (value : α) :
    (heap.define scope name value).Nested := by
  refine ⟨?_, ?_, fun other notRoot inside => ?_⟩
  · rw [nextId_define]
    exact nested.root
  · rw [link?_define]
    exact nested.outermost
  · rw [nextId_define] at inside
    rw [link?_define]
    exact nested.inside other notRoot inside

theorem create (nested : heap.Nested) {outer : ScopeId} (present : outer < heap.nextId) :
    (heap.create (some outer)).Nested := by
  refine ⟨?_, ?_, fun other notRoot inside => ?_⟩
  · rw [nextId_create]
    exact Nat.lt_succ_of_lt nested.root
  · rw [link?_create, if_neg (Nat.ne_of_lt nested.root)]
    exact nested.outermost
  · rw [nextId_create] at inside
    rw [link?_create]
    split
    · rename_i new
      subst new
      exact ⟨outer, present, rfl⟩
    · rename_i old
      exact nested.inside other notRoot (Nat.lt_of_le_of_ne (Nat.le_of_lt_succ inside) old)

/-- From every scope the links lead to the global one. -/
theorem rooted (nested : heap.Nested) (scope : ScopeId) (present : scope < heap.nextId) :
    heap.Rooted scope := by
  induction scope using Nat.strongRecOn with
  | ind scope inductionHypothesis =>
      by_cases root : scope = globalScope
      · rw [root]
        exact .globals
      · rcases nested.inside scope root present with ⟨outer, older, link⟩
        exact .inside link (inductionHypothesis outer older (Nat.lt_trans older present))

/-- Going outward leaves out no link. -/
theorem enclosing?_eq_link? (nested : heap.Nested) (scope : ScopeId) : heap.enclosing? scope = heap.link? scope := by
  have outward : ∀ outer, heap.link? scope = some outer → outer < scope := by
    intro outer link
    have notRoot : scope ≠ globalScope := by
      rintro rfl
      cases nested.outermost.symm.trans link
    have present : scope < heap.nextId := by
      rcases Option.bind_eq_some_iff.mp link with ⟨_, found, _⟩
      exact (Array.getElem?_eq_some_iff.mp found).1
    rcases nested.inside scope notRoot present with ⟨other, older, linked⟩
    cases linked.symm.trans link
    exact older
  unfold enclosing?
  unfold link? at outward ⊢
  generalize heap.scopes[scope]? = found at outward ⊢
  rcases found with _ | ⟨bindings, _ | outer⟩
  · rfl
  · rfl
  · exact Option.filter_some_pos (decide_eq_true (outward outer rfl))

end Nested

/-! ## Growth -/

namespace Extends

theorem refl (heap : Heap α) : heap.Extends heap := ⟨Nat.le_refl _, fun _ _ => rfl, fun _ _ bound => bound⟩

theorem trans (first : heap.Extends middle) (second : middle.Extends later) : heap.Extends later :=
  ⟨Nat.le_trans first.older second.older,
    fun scope present =>
      (second.links scope (Nat.lt_of_lt_of_le present first.older)).trans (first.links scope present),
    fun scope name bound => second.names scope name (first.names scope name bound)⟩

theorem define (heap : Heap α) (scope : ScopeId) (name : String) (value : α) :
    heap.Extends (heap.define scope name value) := by
  refine ⟨Nat.le_of_eq (nextId_define ..).symm, fun _ _ => link?_define .., fun other wanted bound => ?_⟩
  rw [lookup?_define]
  split
  · rfl
  · exact bound

theorem create (heap : Heap α) (enclosing : Option ScopeId) : heap.Extends (heap.create enclosing) := by
  refine ⟨?_, fun scope present => ?_, fun other wanted bound => ?_⟩
  · rw [nextId_create]
    exact Nat.le_succ _
  · rw [link?_create, if_neg (Nat.ne_of_lt present)]
  · rwa [lookup?_create]

end Extends

end Heap

/-! ## Steps and runs -/

namespace State

theorem extends_enterCall (state : State) (closure : Closure) (arguments : List Value) :
    state.heap.Extends (state.enterCall closure arguments).heap :=
  bindParameters_of_define (P := fun after => state.heap.Extends after.heap)
    (fun _ _ _ holds => holds.trans (.define ..)) closure.parameters (.create ..)

/-- Nothing that a step can do takes away a scope, a link or a name. -/
theorem Becomes.extends {state after : State} (becomes : state.Becomes after) :
    state.heap.Extends after.heap := by
  cases becomes with
  | define name value => exact .define ..
  | defineFunction name closure => exact .define ..
  | assign value found => exact .define ..
  | enterScope => exact .create ..
  | enterCall closure arguments => exact extends_enterCall _ _ _
  | same | tick | leaveScope | leaveCall | writeLine => exact .refl _

end State

/-- A run only adds to the scopes. -/
theorem Config.extends_iterate_step (config : Config) {n m : Nat} (later : n ≤ m) :
    (step^[n] config).state.heap.Extends (step^[m] config).state.heap := by
  induction later with
  | refl => exact .refl _
  | step _ inductionHypothesis =>
      rw [Function.iterate_succ_apply']
      exact inductionHypothesis.trans (becomes_step _).extends

end ScopedScript
