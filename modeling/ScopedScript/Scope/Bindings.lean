namespace ScopedScript

/-!
# The names bound in one scope

`Bindings` holds the names of a scope with their values, in the order in which the names were first
bound.  Binding a name again replaces its value in place.
-/

/-- Names with their values. -/
structure Bindings (α : Type) where
  entries : List (String × α) := []

namespace Bindings

variable {α : Type}

/-- No names. -/
def empty : Bindings α := {}

/-- The value found first under a name. -/
def findEntry? (name : String) : List (String × α) → Option α
  | [] => none
  | (bound, value) :: rest => if bound = name then some value else findEntry? name rest

/-- Replace the value of a name, or add the name at the end. -/
def insertEntry (name : String) (value : α) : List (String × α) → List (String × α)
  | [] => [(name, value)]
  | (bound, old) :: rest =>
    if bound = name then (bound, value) :: rest else (bound, old) :: insertEntry name value rest

/-- The value of a name. -/
def find? (bindings : Bindings α) (name : String) : Option α := findEntry? name bindings.entries

/-- Bind a name, new or not. -/
def insert (bindings : Bindings α) (name : String) (value : α) : Bindings α :=
  ⟨insertEntry name value bindings.entries⟩

private theorem findEntry?_insertEntry (name other : String) (value : α)
    (entries : List (String × α)) :
    findEntry? other (insertEntry name value entries) =
      if name = other then some value else findEntry? other entries := by
  induction entries with
  | nil => simp [insertEntry, findEntry?]
  | cons entry rest inductionHypothesis =>
    obtain ⟨bound, old⟩ := entry
    by_cases same : bound = name
    · by_cases wanted : name = other <;> simp [insertEntry, findEntry?, same, wanted]
    · by_cases wanted : bound = other
      · subst wanted
        simp [insertEntry, findEntry?, same, Ne.symm same]
      · simp [insertEntry, findEntry?, same, wanted, inductionHypothesis]

theorem find?_empty (name : String) : (empty : Bindings α).find? name = none := rfl

/-- Binding a name is seen under that name and under no other. -/
@[simp] theorem find?_insert (bindings : Bindings α) (name other : String) (value : α) :
    (bindings.insert name value).find? other =
      if name = other then some value else bindings.find? other :=
  findEntry?_insertEntry name other value bindings.entries

end Bindings

end ScopedScript
