import ScopedScript.Scope.Bindings
namespace ScopedScript

/-!
# The heap of scopes

Scopes are numbered in order of creation and link to the scope around them, which is older.  A variable
is reached in two ways: by name, from a scope outward to the nearest one that binds it, or by distance,
exactly so many scopes outward.  A distance may be wrong for a scope; that is a `ScopeDefect` and no
error of the running program.
-/

/-- The number of a scope. -/
abbrev ScopeId := Nat

/-- The names of one scope and the scope around it. -/
structure Scope (α : Type) where
  bindings : Bindings α
  enclosing : Option ScopeId

/-- All scopes ever created. -/
structure Heap (α : Type) where
  scopes : Array (Scope α) := #[]

/-- A recorded distance that does not fit the scopes it is used in. -/
inductive ScopeDefect where
  | tooFar (distance : Nat)
  | unbound (name : String) (distance : Nat)
  deriving DecidableEq, Repr

namespace ScopeDefect

/-- The wording of a defect. -/
def message : ScopeDefect → String
  | tooFar distance => "resolved distance " ++ toString distance ++ " exceeds environment depth"
  | unbound name distance =>
    "resolved variable '" ++ name ++ "' missing at distance " ++ toString distance

end ScopeDefect

namespace Heap

variable {α : Type}

/-- No scopes. -/
def empty : Heap α := {}

/-- The number that the next scope will have. -/
def nextId (heap : Heap α) : ScopeId := heap.scopes.size

/-- Create a scope without names. -/
def create (heap : Heap α) (enclosing : Option ScopeId) : Heap α :=
  ⟨heap.scopes.push ⟨.empty, enclosing⟩⟩

/-- The scope around a scope.  A link to a scope that is no older counts as none, so that going outward always ends.
No such link is ever made: a scope is created inside one that is there already. -/
def enclosing? (heap : Heap α) (scope : ScopeId) : Option ScopeId :=
  match heap.scopes[scope]? with
  | some s => s.enclosing.filter (· < scope)
  | none => none

theorem enclosing?_lt {heap : Heap α} {scope outer : ScopeId}
    (link : heap.enclosing? scope = some outer) : outer < scope := by
  unfold enclosing? at link
  split at link
  · exact of_decide_eq_true (Option.filter_eq_some_iff.mp link).2
  · exact nomatch link

/-- The value of a name in one scope. -/
def lookup? (heap : Heap α) (scope : ScopeId) (name : String) : Option α :=
  match heap.scopes[scope]? with
  | some s => s.bindings.find? name
  | none => none

/-- Bind a name in one scope, new or not. -/
def define (heap : Heap α) (scope : ScopeId) (name : String) (value : α) : Heap α :=
  ⟨heap.scopes.modify scope fun s => { s with bindings := s.bindings.insert name value }⟩

/-- The nearest scope outward that binds a name. -/
def holder? (heap : Heap α) (scope : ScopeId) (name : String) : Option ScopeId :=
  if (heap.lookup? scope name).isSome then some scope
  else
    match _link : heap.enclosing? scope with
    | some outer => heap.holder? outer name
    | none => none
termination_by scope
decreasing_by exact enclosing?_lt _link

/-- The value of a name in the nearest scope outward that binds it. -/
def get? (heap : Heap α) (scope : ScopeId) (name : String) : Option α :=
  (heap.holder? scope name).bind (heap.lookup? · name)

/-- Change a name in the nearest scope outward that binds it. -/
@[inline] def assign? (heap : Heap α) (scope : ScopeId) (name : String) (value : α) :
    Option (Heap α) :=
  match heap.holder? scope name with
  | some holder => some (heap.define holder name value)
  | none => none

/-- The scope so many links outward. -/
def ancestor? (heap : Heap α) (scope : ScopeId) : Nat → Option ScopeId
  | 0 => some scope
  | distance + 1 =>
    match heap.enclosing? scope with
    | some outer => heap.ancestor? outer distance
    | none => none

/-- The scope so many links outward, which is expected to be there. -/
def ancestor (heap : Heap α) (scope : ScopeId) (distance : Nat) : Except ScopeDefect ScopeId :=
  match heap.ancestor? scope distance with
  | some holder => .ok holder
  | none => .error (.tooFar distance)

/-- The value of a name exactly so many scopes outward, where it is expected to be bound. -/
def getAt (heap : Heap α) (scope : ScopeId) (distance : Nat) (name : String) :
    Except ScopeDefect α :=
  match heap.ancestor scope distance with
  | .ok holder =>
    match heap.lookup? holder name with
    | some value => .ok value
    | none => .error (.unbound name distance)
  | .error defect => .error defect

/-- Bind a name exactly so many scopes outward. -/
@[inline] def assignAt (heap : Heap α) (scope : ScopeId) (distance : Nat) (name : String)
    (value : α) : Except ScopeDefect (Heap α) :=
  match heap.ancestor scope distance with
  | .ok holder => .ok (heap.define holder name value)
  | .error defect => .error defect

/-! ## What the operations do to the names and links of every scope -/

/-- Binding a name changes that name in that scope and nothing else. -/
theorem lookup?_define (heap : Heap α) (scope other : ScopeId) (name wanted : String) (value : α) :
    (heap.define scope name value).lookup? other wanted =
      if scope = other ∧ name = wanted ∧ other < heap.nextId then some value
      else heap.lookup? other wanted := by
  unfold lookup? define nextId
  rw [Array.getElem?_modify]
  by_cases sameScope : scope = other
  · subst sameScope
    by_cases inside : scope < heap.scopes.size
    · by_cases sameName : name = wanted <;>
        simp [inside, sameName]
    · simp [inside]
  · simp [sameScope]

/-- Binding a name changes no link. -/
@[simp] theorem enclosing?_define (heap : Heap α) (scope other : ScopeId) (name : String)
    (value : α) : (heap.define scope name value).enclosing? other = heap.enclosing? other := by
  unfold enclosing? define
  rw [Array.getElem?_modify]
  by_cases sameScope : scope = other
  · subst sameScope
    cases found : heap.scopes[scope]? <;> simp
  · simp [sameScope]

/-- Binding a name creates no scope. -/
@[simp] theorem nextId_define (heap : Heap α) (scope : ScopeId) (name : String) (value : α) :
    (heap.define scope name value).nextId = heap.nextId := by
  simp [nextId, define]

/-- A new scope binds no name, and the others keep theirs. -/
@[simp] theorem lookup?_create (heap : Heap α) (enclosing : Option ScopeId) (other : ScopeId)
    (name : String) : (heap.create enclosing).lookup? other name = heap.lookup? other name := by
  unfold lookup? create
  rw [Array.getElem?_push]
  by_cases new : other = heap.scopes.size
  · subst new
    simp [Bindings.find?_empty]
  · simp [new]

/-- A new scope has the link it is created with, if that leads to an older scope. -/
theorem enclosing?_create (heap : Heap α) (enclosing : Option ScopeId) (other : ScopeId) :
    (heap.create enclosing).enclosing? other =
      if other = heap.nextId then enclosing.filter (· < other) else heap.enclosing? other := by
  unfold enclosing? create nextId
  rw [Array.getElem?_push]
  by_cases new : other = heap.scopes.size <;> simp [new]

/-- Creating a scope uses up one number. -/
@[simp] theorem nextId_create (heap : Heap α) (enclosing : Option ScopeId) :
    (heap.create enclosing).nextId = heap.nextId + 1 := by
  simp [nextId, create]

end Heap

end ScopedScript
