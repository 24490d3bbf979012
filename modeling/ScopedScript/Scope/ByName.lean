import ScopedScript.Failure
namespace ScopedScript

/-!
# Variables by name

A variable that is looked for by name, from a scope outward, may not be there.  Reading it and assigning to
it then fail alike, with its name and the line on which it stands, and an assignment that fails leaves all
scopes as they were.
-/

namespace Heap

variable {α : Type}

/-- Read a variable in the nearest scope outward that binds its name. -/
def get (heap : Heap α) (scope : ScopeId) (target : Identifier) : Except RuntimeError α :=
  match heap.get? scope target.name with
  | some value => .ok value
  | none => .error ⟨.undefinedVariable target.name, target.line⟩

/-- Assign to a variable in the nearest scope outward that binds its name. -/
@[inline] def assign (heap : Heap α) (scope : ScopeId) (target : Identifier) (value : α) :
    Heap α × Except RuntimeError Unit :=
  match heap.assign? scope target.name value with
  | some after => (after, .ok ())
  | none => (heap, .error ⟨.undefinedVariable target.name, target.line⟩)

end Heap

end ScopedScript
