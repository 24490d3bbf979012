import ScopedScript.Machine.Step
namespace ScopedScript

/-!
# When recorded distances fit

A recorded distance fits a config when the scope that it leads to is there and binds the name.  For
writes there is one exception: while the initializer of a local variable is under way, the variable is
not bound yet, but an assignment in the initializer may already write to it.
-/

/-- Whether the value that is waited for becomes part of the initializer of a variable with this name,
within the same call. -/
def ValueStack.isInitializing (name : String) : ValueStack → Bool
  | .unary _ _ below
  | .binaryLeft _ _ _ below
  | .binaryRight _ _ _ below
  | .logical _ _ below
  | .assign _ _ below
  | .callee _ _ below
  | .argument _ _ _ _ below => below.isInitializing name
  | .declare declared _ => declared == name
  | _ => false

/-- Whether the value that is waited for is to be assigned. -/
def ValueStack.isAssigning : ValueStack → Bool
  | .assign _ _ _ => true
  | _ => false

/-- Whether an expression is a variable. -/
def Expr.isVariable : Expr → Bool
  | .variable _ _ => true
  | _ => false

namespace Config

/-- If the next step reads or writes by distance, the distance leads to a scope that binds the name.  A
write may also be the first one to the variable whose initializer it belongs to, in the current scope. -/
def AccessesBound (config : Config) : Prop :=
  let state := config.state
  match config.focus with
  | .evaluate (.variable ref target) _ =>
    ∀ distance, state.distances.find? ref = some distance →
      ∃ holder, state.heap.ancestor? state.scope distance = some holder ∧
        (state.heap.lookup? holder target.name).isSome
  | .value _ (.assign ref target stack) =>
    ∀ distance, state.distances.find? ref = some distance →
      ∃ holder, state.heap.ancestor? state.scope distance = some holder ∧
        ((state.heap.lookup? holder target.name).isSome ∨
          holder = state.scope ∧ stack.isInitializing target.name)
  | _ => True

/-- Whether a defect of the scope analysis has come to light. -/
def isDefective (config : Config) : Bool :=
  match config.focus with
  | .unwindValue (.defect _) _ | .unwindFlow (.defect _) _ => true
  | _ => false

/-- Distances fit, and no defect has come to light. -/
structure Sound (config : Config) : Prop where
  accessesBound : config.AccessesBound
  notDefective : config.isDefective = false

/-- Where nothing is read or written by distance and nothing unwinds, everything is sound. -/
theorem sound_value {state : State} {value : Value} {stack : ValueStack}
    (noWrite : stack.isAssigning = false) : Sound ⟨state, .value value stack⟩ := by
  refine ⟨?_, rfl⟩
  cases stack with
  | assign ref target below => cases noWrite
  | _ => exact trivial

theorem sound_evaluate {state : State} {e : Expr} {stack : ValueStack}
    (noRead : e.isVariable = false) : Sound ⟨state, .evaluate e stack⟩ := by
  refine ⟨?_, rfl⟩
  unfold AccessesBound
  split
  · rename_i same
    cases same
    cases noRead
  · rename_i same
    cases same
  · trivial

theorem sound_execute {state : State} {s : Stmt} {stack : FlowStack} :
    Sound ⟨state, .execute s stack⟩ := ⟨trivial, rfl⟩

theorem sound_executeAll {state : State} {ss : List Stmt} {stack : FlowStack} :
    Sound ⟨state, .executeAll ss stack⟩ := ⟨trivial, rfl⟩

theorem sound_flow {state : State} {flow : Flow} {stack : FlowStack} :
    Sound ⟨state, .flow flow stack⟩ := ⟨trivial, rfl⟩

theorem sound_unwindValue {state : State} {error : RuntimeError} {stack : ValueStack} :
    Sound ⟨state, .unwindValue (.runtime error) stack⟩ := ⟨trivial, rfl⟩

theorem sound_unwindFlow {state : State} {error : RuntimeError} {stack : FlowStack} :
    Sound ⟨state, .unwindFlow (.runtime error) stack⟩ := ⟨trivial, rfl⟩

end Config

end ScopedScript
