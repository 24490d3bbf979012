import ScopedScript.Proofs.Scoping.Correspondence
namespace ScopedScript

/-!
# What happens to a world

Each thing that a program does to its surroundings is done on both sides at once, and the two sides agree
afterwards.  `Moved` says what is left of a world when a piece of a program has been run in it: the
current scope is current again, and no scope that was there before has got new names, except the current
one when the piece was a statement.
-/

open Cells (Env Store)
open Resolution (ScopeChain distance? distance?_cons distance?_enter distance?_extended extended Fresh
  unready)

/-! ## The top level -/

namespace Heap

variable {α : Type} (heap : Heap α) (name : String)

/-- There is nothing around the first scope. -/
theorem enclosing?_globalScope : heap.enclosing? globalScope = none := by
  cases link : heap.enclosing? globalScope with
  | none => rfl
  | some outer => exact absurd (enclosing?_lt link) (Nat.not_lt_zero outer)

theorem holder?_globalScope :
    heap.holder? globalScope name =
      if (heap.lookup? globalScope name).isSome then some globalScope else none := by
  rw [holder?]
  split
  · rfl
  · split
    · rename_i outer link
      rw [enclosing?_globalScope] at link
      cases link
    · rfl

theorem get?_globalScope : heap.get? globalScope name = heap.lookup? globalScope name := by
  rw [get?, holder?_globalScope]
  cases found : heap.lookup? globalScope name with
  | none => rfl
  | some value => exact found

end Heap

/-! ## Pieces of a run -/

/-- What is left of a world when a piece of a program has been run.  Only an open piece, a statement,
may have declared names in the current scope. -/
structure Moved (known : Known) (depth : Nat) (isOpen : Bool) (w later : World) : Prop where
  agree : Agree known depth later
  grows : Grows w later
  scope : later.state.scope = w.state.scope
  still : ∀ scope, scope < w.state.heap.nextId → (isOpen = true → scope ≠ w.state.scope) →
    later.layout scope = w.layout scope
  distances : later.state.distances = w.state.distances

namespace Moved

variable {known : Known} {depth : Nat} {isOpen : Bool} {w middle later : World} {chain : ScopeChain}

theorem refl (agree : Agree known depth w) : Moved known depth isOpen w w :=
  ⟨agree, .refl w, rfl, fun _ _ _ => rfl, rfl⟩

theorem trans (first : Moved known depth isOpen w middle)
    (second : Moved known depth isOpen middle later) : Moved known depth isOpen w later := by
  refine ⟨second.agree, first.grows.trans second.grows, second.scope.trans first.scope, ?_,
    second.distances.trans first.distances⟩
  intro scope below outside
  rw [second.still scope (Nat.lt_of_lt_of_le below first.grows.scopes), first.still scope below outside]
  intro opened
  rw [first.scope]
  exact outside opened

/-- What leaves the current scope alone also does when it need not. -/
theorem opened (moved : Moved known depth false w later) : Moved known depth isOpen w later :=
  ⟨moved.agree, moved.grows, moved.scope, fun scope below _ => moved.still scope below nofun,
    moved.distances⟩

theorem exact (moved : Moved known depth false w later) (below : w.state.scope < w.state.heap.nextId)
    (exact : Exact w w.state.scope chain) : Exact later later.state.scope chain := by
  cases chain with
  | nil => trivial
  | cons innermost outer =>
      intro name placed
      rw [moved.scope, moved.still w.state.scope below nofun] at placed
      exact exact name placed

/-- When a scope of its own is left again, whatever was declared in it is out of the way. -/
theorem left {inner final : World} {innerDepth : Nat} (entered : Grows w inner)
    (layout : inner.layout = w.layout) (distances : inner.state.distances = w.state.distances)
    (isNew : inner.state.scope = w.state.heap.nextId)
    (moved : Moved known innerDepth true inner later) (agree : Agree known depth final)
    (leaves : Grows later final) (layoutToo : final.layout = later.layout)
    (distancesToo : final.state.distances = later.state.distances)
    (back : final.state.scope = w.state.scope) : Moved known depth isOpen w final := by
  refine ⟨agree, (entered.trans moved.grows).trans leaves, back, ?_,
    (distancesToo.trans moved.distances).trans distances⟩
  intro scope below _
  have older : scope ≠ inner.state.scope := by
    rw [isNew]
    exact Nat.ne_of_lt below
  rw [layoutToo, moved.still scope (Nat.lt_of_lt_of_le below entered.scopes) fun _ => older, layout]

end Moved

/-! ## What is done on both sides at once -/

namespace World

/-- A new scope inside the given one is current. -/
def enterScope (w : World) (outer : ScopeId) : World := { w with state := w.state.enterScope outer }

/-- An older scope is current again. -/
def leaveScope (w : World) (outer : ScopeId) : World := { w with state := w.state.leaveScope outer }

/-- One more call is active. -/
def deeper (w : World) : World := { w with state := { w.state with depth := w.state.depth + 1 } }

/-- A call has ended. -/
def leaveCall (w : World) (caller : ScopeId) : World := { w with state := w.state.leaveCall caller }

/-- Something has been printed. -/
def print (w : World) (sink : Sink) : World :=
  { w with state := { w.state with sink }, store := { w.store with sink } }

/-- The clock has been read. -/
def tick (w : World) : World := { w with state := w.state.tick, store := w.store.tick }

/-- A new function value has captured the map. -/
def close (w : World) (env : Env) : World :=
  { w with
    state := { w.state with identity := w.state.identity + 1 },
    store := { w.store with
      captured := w.store.captured.push env, identity := w.store.identity + 1 } }

end World

/-! ## Changes that touch no variable -/

section Untouched

variable {known : Known} {depth newDepth : Nat} {w later : World}

theorem Grows.of_heap_eq (heap : later.state.heap = w.state.heap) (layout : later.layout = w.layout)
    (captured : ∀ (index : Nat) env, w.store.captured[index]? = some env →
      later.store.captured[index]? = some env) : Grows w later := by
  refine ⟨?_, ?_, ?_, ?_, captured⟩
  · exact Nat.le_of_eq (congrArg Heap.nextId heap).symm
  · intro scope _
    rw [heap]
  · intro scope name bound
    rw [heap]
    exact bound
  · intro scope name cell placed
    rw [layout]
    exact placed

theorem Grows.leaveScope (w : World) (outer : ScopeId) : Grows w (w.leaveScope outer) :=
  .of_heap_eq rfl rfl fun _ _ => id

theorem Grows.deeper (w : World) : Grows w w.deeper := .of_heap_eq rfl rfl fun _ _ => id

theorem Grows.leaveCall (w : World) (caller : ScopeId) : Grows w (w.leaveCall caller) :=
  .of_heap_eq rfl rfl fun _ _ => id

theorem Grows.print (w : World) (sink : Sink) : Grows w (w.print sink) :=
  .of_heap_eq rfl rfl fun _ _ => id

theorem Grows.tick (w : World) : Grows w w.tick := .of_heap_eq rfl rfl fun _ _ => id

/-- What agrees on all variables still does when other things change on both sides. -/
theorem Agree.carry (agree : Agree known depth w) (grows : Grows w later)
    (heap : later.state.heap = w.state.heap) (layout : later.layout = w.layout)
    (cells : later.store.cells = w.store.cells) (globals : later.store.globals = w.store.globals)
    (distances : later.state.distances = w.state.distances)
    (host : later.state.host = later.store.host) (sink : later.state.sink = later.store.sink)
    (identity : later.state.identity = later.store.identity) (counted : later.state.depth = newDepth) :
    Agree known newDepth later where
  host := host
  sink := sink
  identity := identity
  depth := counted
  distances := by
    rw [distances]
    exact agree.distances
  globals := by
    intro name
    rw [heap, globals]
    exact grows.alike? (agree.globals name)
  contents := by
    intro scope name cell value placed found
    rw [layout] at placed
    rw [heap] at found
    rcases agree.contents scope name cell value placed found with ⟨other, held, alike⟩
    rw [cells]
    exact ⟨other, held, grows.alike alike⟩
  laidOut := by
    rw [heap, layout, cells]
    exact agree.laidOut
  apart := by
    rw [layout]
    exact agree.apart
  covered := by
    rw [heap, layout]
    exact agree.covered

theorem Agree.leaveScope (agree : Agree known depth w) (scope : ScopeId) :
    Agree known depth (w.leaveScope scope) :=
  agree.carry (.leaveScope w scope) rfl rfl rfl rfl rfl agree.host agree.sink
    agree.identity agree.depth

theorem Agree.leaveCall (agree : Agree known (depth + 1) w) (caller : ScopeId) :
    Agree known depth (w.leaveCall caller) :=
  agree.carry (.leaveCall w caller) rfl rfl rfl rfl rfl agree.host agree.sink
    agree.identity (congrArg (· - 1) agree.depth)

theorem Agree.deeper (agree : Agree known depth w) : Agree known (depth + 1) w.deeper :=
  agree.carry (.deeper w) rfl rfl rfl rfl rfl agree.host agree.sink
    agree.identity (congrArg (· + 1) agree.depth)

theorem Agree.print (agree : Agree known depth w) (sink : Sink) :
    Agree known depth (w.print sink) :=
  agree.carry (.print w sink) rfl rfl rfl rfl rfl agree.host rfl
    agree.identity agree.depth

theorem Moved.print (agree : Agree known depth w) (sink : Sink) :
    Moved known depth false w (w.print sink) :=
  ⟨agree.print sink, .print w sink, rfl, fun _ _ _ => rfl, rfl⟩

theorem Moved.tick (agree : Agree known depth w) : Moved known depth false w w.tick :=
  ⟨agree.carry (.tick w) rfl rfl rfl rfl rfl (congrArg Host.tick agree.host) agree.sink agree.identity agree.depth,
    .tick w, rfl, fun _ _ _ => rfl, rfl⟩

theorem Moved.close (agree : Agree known depth w) {isOpen : Bool} (env : Env) :
    Moved known depth isOpen w (w.close env) := by
  have grows : Grows w (w.close env) := by
    refine .of_heap_eq rfl rfl fun index other found => ?_
    have below : index < w.store.captured.size := (Array.getElem?_eq_some_iff.mp found).1
    change (w.store.captured.push env)[index]? = some other
    rw [Array.getElem?_push, if_neg (Nat.ne_of_lt below)]
    exact found
  exact ⟨agree.carry grows rfl rfl rfl rfl rfl agree.host agree.sink
    (congrArg (· + 1) agree.identity) agree.depth, grows, rfl, fun _ _ _ => rfl, rfl⟩

end Untouched

/-! ## Entering a scope -/

section Enter

variable {known : Known} {depth : Nat} {w : World} {chain : ScopeChain} {outer : ScopeId} {env : Env}

theorem Grows.enter (w : World) (outer : ScopeId) :
    Grows w (w.enterScope outer) := by
  refine ⟨?_, ?_, ?_, fun _ _ _ => id, fun _ _ => id⟩
  · change w.state.heap.nextId ≤ (w.state.heap.create (some outer)).nextId
    rw [Heap.nextId_create]
    exact Nat.le_succ _
  · intro scope below
    change (w.state.heap.create (some outer)).enclosing? scope = _
    rw [Heap.enclosing?_create, if_neg (Nat.ne_of_lt below)]
  · intro scope name bound
    change ((w.state.heap.create (some outer)).lookup? scope name).isSome
    rw [Heap.lookup?_create]
    exact bound

theorem Agree.enter (agree : Agree known depth w) (outer : ScopeId) :
    Agree known depth (w.enterScope outer) where
  host := agree.host
  sink := agree.sink
  identity := agree.identity
  depth := agree.depth
  distances := agree.distances
  globals := by
    intro name
    change Option.Rel _ ((w.state.heap.create (some outer)).lookup? globalScope name) _
    rw [Heap.lookup?_create]
    exact (Grows.enter w outer).alike? (agree.globals name)
  contents := by
    intro scope name cell value placed found
    change (w.state.heap.create (some outer)).lookup? scope name = some value at found
    rw [Heap.lookup?_create] at found
    rcases agree.contents scope name cell value placed found with ⟨other, held, alike⟩
    exact ⟨other, held, (Grows.enter w outer).alike alike⟩
  laidOut := by
    intro scope name cell placed
    rcases agree.laidOut scope name cell placed with ⟨isLocal, below, inside⟩
    exact ⟨isLocal, Nat.lt_of_lt_of_le below (Grows.enter w outer).scopes, inside⟩
  apart := agree.apart
  covered := by
    intro scope name isLocal bound
    change ((w.state.heap.create (some outer)).lookup? scope name).isSome at bound
    rw [Heap.lookup?_create] at bound
    exact agree.covered scope name isLocal bound

/-- The new scope stands for an innermost scope without names. -/
theorem Represents.enter (represents : Represents w chain none outer env) :
    Represents (w.enterScope outer) ([] :: chain) none (w.enterScope outer).state.scope env.enter := by
  have link : (w.state.heap.create (some outer)).enclosing? w.state.heap.nextId = some outer := by
    rw [Heap.enclosing?_create, if_pos rfl]
    exact Option.filter_eq_some_iff.mpr ⟨rfl, decide_eq_true represents.exists_scope⟩
  have sameNames : ∀ name, env.enter.find? name = env.find? name := by
    intro name
    cases env <;> rfl
  refine ⟨?_, nofun, fun _ => ⟨?_, ?_⟩, ?_, ?_⟩
  · change w.state.heap.nextId < (w.state.heap.create (some outer)).nextId
    rw [Heap.nextId_create]
    exact Nat.lt_succ_self _
  · exact Nat.ne_of_gt (Nat.lt_of_le_of_lt (Nat.zero_le outer) represents.exists_scope)
  · cases env with
    | topLevel => exact ⟨.empty, rfl⟩
    | inside names => exact ⟨names, rfl⟩
  · intro name far
    rw [distance?_enter, Option.map_eq_none_iff] at far
    rw [sameNames]
    exact represents.absent name far
  · intro name distance near
    rw [distance?_enter, Option.map_eq_some_iff] at near
    rcases near with ⟨shorter, near, same⟩
    subst same
    have grown := (Grows.enter w outer).represents represents
    rcases grown.present name shorter near with ⟨holder, cell, outward, placed, found, bound⟩
    refine ⟨holder, cell, ?_, placed, ?_, .inl ?_⟩
    · change (w.state.heap.create (some outer)).ancestor? w.state.heap.nextId (shorter + 1) = _
      rw [Heap.ancestor?, link]
      exact outward
    · rw [sameNames]
      exact found
    · rcases bound with bound | ⟨impossible, _⟩
      · exact bound
      · cases impossible

theorem Exact.enter (agree : Agree known depth w) (outer : ScopeId) (chain : ScopeChain) :
    Exact (w.enterScope outer) (w.enterScope outer).state.scope ([] :: chain) := by
  intro name placed
  rcases Option.isSome_iff_exists.mp placed with ⟨cell, found⟩
  exact absurd (agree.laidOut _ _ _ found).2.1 (Nat.lt_irrefl _)

end Enter

end ScopedScript
