import ScopedScript.Scope.ByName
namespace ScopedScript

/-!
# Heaps with other values

A heap only stores values and never looks at them.  So changing every value of a heap in the same way
changes no scope, no link and no name, and it does not matter whether a value is changed before it is
stored or afterwards.

`Heap.All` says something of every value on a heap.
-/

variable {α β γ : Type}

namespace Bindings

/-- The same names with other values. -/
def map (f : α → β) (bindings : Bindings α) : Bindings β :=
  ⟨bindings.entries.map (Prod.map id f)⟩

variable (f : α → β) (name : String)

theorem find?_map (bindings : Bindings α) :
    (bindings.map f).find? name = (bindings.find? name).map f := by
  rcases bindings with ⟨entries⟩
  induction entries with
  | nil => rfl
  | cons entry rest inductionHypothesis =>
      change (if entry.1 = name then some (f entry.2) else (map f ⟨rest⟩).find? name) =
        (if entry.1 = name then some entry.2 else find? ⟨rest⟩ name).map f
      rw [inductionHypothesis]
      split <;> rfl

theorem insertEntry_map (value : α) (entries : List (String × α)) :
    insertEntry name (f value) (entries.map (Prod.map id f)) =
      (insertEntry name value entries).map (Prod.map id f) := by
  induction entries with
  | nil => rfl
  | cons entry rest inductionHypothesis =>
      rcases entry with ⟨bound, old⟩
      rw [insertEntry]
      change (if bound = name then (bound, f value) :: rest.map (Prod.map id f)
        else (bound, f old) :: insertEntry name (f value) (rest.map (Prod.map id f))) = _
      rw [inductionHypothesis]
      split <;> rfl

theorem insert_map (bindings : Bindings α) (value : α) :
    (bindings.map f).insert name (f value) = (bindings.insert name value).map f :=
  congrArg mk (insertEntry_map f name value bindings.entries)

variable {f name}

theorem mem_of_find?_eq_some {bindings : Bindings α} {value : α}
    (found : bindings.find? name = some value) : ∃ entry ∈ bindings.entries, entry.2 = value := by
  rcases bindings with ⟨entries⟩
  induction entries with
  | nil => cases found
  | cons entry rest inductionHypothesis =>
      change (if entry.1 = name then some entry.2 else find? ⟨rest⟩ name) = some value at found
      split at found
      · exact ⟨entry, List.mem_cons_self, Option.some.inj found⟩
      · rcases inductionHypothesis found with ⟨other, member, same⟩
        exact ⟨other, List.mem_cons_of_mem entry member, same⟩

theorem mem_insert {bindings : Bindings α} {value : α} {entry : String × α}
    (member : entry ∈ (bindings.insert name value).entries) :
    entry ∈ bindings.entries ∨ entry.2 = value := by
  rcases bindings with ⟨entries⟩
  change entry ∈ insertEntry name value entries at member
  change entry ∈ entries ∨ _
  induction entries with
  | nil =>
      cases List.mem_singleton.mp member
      exact .inr rfl
  | cons first rest inductionHypothesis =>
      rcases first with ⟨bound, old⟩
      rw [insertEntry] at member
      split at member
      · rcases List.mem_cons.mp member with same | later
        · subst same
          exact .inr rfl
        · exact .inl (List.mem_cons_of_mem _ later)
      · rcases List.mem_cons.mp member with same | later
        · subst same
          exact .inl List.mem_cons_self
        · exact (inductionHypothesis later).imp_left (List.mem_cons_of_mem _)

end Bindings

/-- The same names and the same link with other values. -/
def Scope.map (f : α → β) (scope : Scope α) : Scope β := ⟨scope.bindings.map f, scope.enclosing⟩

namespace Heap

/-! ## What a search by name looks at -/

section Search

variable {heap : Heap α} {scope outer : ScopeId} {name : String}

theorem holder?_of_bound (bound : (heap.lookup? scope name).isSome) : heap.holder? scope name = some scope := by
  rw [holder?, if_pos bound]

theorem holder?_of_link (unbound : heap.lookup? scope name = none) (link : heap.enclosing? scope = some outer) :
    heap.holder? scope name = heap.holder? outer name := by
  rw [holder?]
  simp only [unbound, Option.isSome_none, Bool.false_eq_true, if_false]
  split
  · rename_i found
    rw [link] at found
    cases found
    rfl
  · rename_i found
    rw [link] at found
    cases found

theorem holder?_of_outermost (unbound : heap.lookup? scope name = none)
    (outermost : heap.enclosing? scope = none) : heap.holder? scope name = none := by
  rw [holder?]
  simp only [unbound, Option.isSome_none, Bool.false_eq_true, if_false]
  split
  · rename_i found
    rw [outermost] at found
    cases found
  · rfl

/-- A search looks at the links and at which names are bound, and not at the values. -/
theorem holder?_congr {later : Heap β} (names : ∀ other, (later.lookup? other name).isSome =
      (heap.lookup? other name).isSome) (links : ∀ other, later.enclosing? other = heap.enclosing? other)
    (scope : ScopeId) : later.holder? scope name = heap.holder? scope name := by
  induction scope using Nat.strongRecOn with
  | ind scope inductionHypothesis =>
      have same := names scope
      cases bound : heap.lookup? scope name with
      | some value =>
          rw [bound] at same
          rw [holder?_of_bound same, holder?_of_bound (by rw [bound]; rfl)]
      | none =>
          rw [bound, Option.isSome_none, Option.isSome_eq_false_iff, Option.isNone_iff_eq_none] at same
          cases link : heap.enclosing? scope with
          | none => rw [holder?_of_outermost bound link, holder?_of_outermost same ((links scope).trans link)]
          | some outer =>
              rw [holder?_of_link bound link, holder?_of_link same ((links scope).trans link)]
              exact inductionHypothesis outer (enclosing?_lt link)

end Search

/-! ## The same scopes with other values -/

/-- The same scopes with other values. -/
def map (f : α → β) (heap : Heap α) : Heap β := ⟨heap.scopes.map (Scope.map f)⟩

variable (f : α → β) (heap : Heap α)

theorem nextId_map : (heap.map f).nextId = heap.nextId := Array.size_map

theorem enclosing?_map (scope : ScopeId) : (heap.map f).enclosing? scope = heap.enclosing? scope := by
  unfold enclosing? map
  rw [Array.getElem?_map]
  cases heap.scopes[scope]? <;> rfl

theorem lookup?_map (scope : ScopeId) (name : String) :
    (heap.map f).lookup? scope name = (heap.lookup? scope name).map f := by
  unfold lookup? map
  rw [Array.getElem?_map]
  cases heap.scopes[scope]? with
  | none => rfl
  | some s => exact s.bindings.find?_map f name

theorem define_map (scope : ScopeId) (name : String) (value : α) :
    (heap.map f).define scope name (f value) = (heap.define scope name value).map f := by
  refine congrArg mk (Array.ext_getElem? fun i => ?_)
  rw [Array.getElem?_modify, map, Array.getElem?_map, Array.getElem?_map, define,
    Array.getElem?_modify]
  split
  · cases heap.scopes[i]? with
    | none => rfl
    | some s => exact congrArg (fun b => some (Scope.mk b s.enclosing)) (s.bindings.insert_map f name value)
  · rfl

theorem create_map (enclosing : Option ScopeId) :
    (heap.map f).create enclosing = (heap.create enclosing).map f :=
  congrArg mk (Array.map_push (f := Scope.map f) (x := ⟨.empty, enclosing⟩)).symm

theorem holder?_map (scope : ScopeId) (name : String) :
    (heap.map f).holder? scope name = heap.holder? scope name := by
  apply holder?_congr
  · intro other
    rw [lookup?_map, Option.isSome_map]
  · intro other
    rw [enclosing?_map]

theorem get?_map (scope : ScopeId) (name : String) :
    (heap.map f).get? scope name = (heap.get? scope name).map f := by
  rw [get?, get?, holder?_map]
  cases heap.holder? scope name with
  | none => rfl
  | some holder => exact heap.lookup?_map f holder name

theorem ancestor?_map (scope : ScopeId) (distance : Nat) :
    (heap.map f).ancestor? scope distance = heap.ancestor? scope distance := by
  induction distance generalizing scope with
  | zero => rfl
  | succ distance inductionHypothesis =>
      rw [ancestor?, ancestor?, enclosing?_map]
      cases heap.enclosing? scope with
      | none => rfl
      | some outer => exact inductionHypothesis outer

theorem ancestor_map (scope : ScopeId) (distance : Nat) :
    (heap.map f).ancestor scope distance = heap.ancestor scope distance := by
  rw [ancestor, ancestor, ancestor?_map]

theorem getAt_map (scope : ScopeId) (distance : Nat) (name : String) :
    (heap.map f).getAt scope distance name = (heap.getAt scope distance name).map f := by
  rw [getAt, getAt, ancestor_map]
  cases heap.ancestor scope distance with
  | error _ => rfl
  | ok holder =>
      dsimp only
      rw [lookup?_map]
      cases heap.lookup? holder name <;> rfl

/-! ## Values changed twice, or not at all -/

theorem map_map (g : β → γ) : (heap.map f).map g = heap.map (g ∘ f) := by
  refine congrArg mk ?_
  unfold map
  rw [Array.map_map]
  refine congrArg (Array.map · heap.scopes) (funext fun scope => ?_)
  refine congrArg (fun entries => Scope.mk ⟨entries⟩ scope.enclosing) ?_
  exact List.map_map

/-- Something holds of every value on a heap. -/
def All (P : α → Prop) : Prop := ∀ scope ∈ heap.scopes, ∀ entry ∈ scope.bindings.entries, P entry.2

variable {f heap} {g : α → β} {P : α → Prop}

/-- Two changes are the same when they do the same to every value that is there. -/
theorem map_congr (agree : heap.All fun value => f value = g value) : heap.map f = heap.map g := by
  refine congrArg mk (Array.map_congr_left fun scope member => ?_)
  refine congrArg (fun entries => Scope.mk ⟨entries⟩ scope.enclosing) ?_
  refine List.map_congr_left fun entry entryMember => ?_
  exact congrArg (Prod.mk entry.1) (agree scope member entry entryMember)

theorem map_eq_self {f : α → α} (unchanged : ∀ value, f value = value) : heap.map f = heap := by
  refine congrArg mk (Array.map_id'' (fun scope => ?_) heap.scopes)
  refine congrArg (fun entries => Scope.mk ⟨entries⟩ scope.enclosing) ?_
  exact List.map_id'' (fun entry => congrArg (Prod.mk entry.1) (unchanged entry.2)) _

theorem All.imp {Q : α → Prop} (all : heap.All P) (follows : ∀ value, P value → Q value) :
    heap.All Q :=
  fun scope member entry entryMember => follows entry.2 (all scope member entry entryMember)

theorem All.lookup? (all : heap.All P) {scope : ScopeId} {name : String} {value : α}
    (found : heap.lookup? scope name = some value) : P value := by
  unfold Heap.lookup? at found
  split at found
  · rename_i s present
    rcases Bindings.mem_of_find?_eq_some found with ⟨entry, member, same⟩
    subst same
    exact all s (Array.mem_of_getElem? present) entry member
  · cases found

theorem All.getAt (all : heap.All P) {scope : ScopeId} {distance : Nat} {name : String} {value : α}
    (found : heap.getAt scope distance name = .ok value) : P value := by
  unfold Heap.getAt at found
  split at found
  · split at found
    · rename_i present
      cases found
      exact all.lookup? present
    · cases found
  · cases found

theorem All.get? (all : heap.All P) {scope : ScopeId} {name : String} {value : α}
    (found : heap.get? scope name = some value) : P value := by
  rcases Option.bind_eq_some_iff.mp found with ⟨holder, _, bound⟩
  exact all.lookup? bound

theorem All.get (all : heap.All P) {scope : ScopeId} {target : Identifier} {value : α}
    (found : heap.get scope target = .ok value) : P value := by
  unfold Heap.get at found
  split at found
  · rename_i read
    cases found
    exact all.get? read
  · cases found

theorem All.define (all : heap.All P) {value : α} (holds : P value) (scope : ScopeId)
    (name : String) : (heap.define scope name value).All P := by
  intro s member entry entryMember
  rcases Array.mem_iff_getElem?.mp member with ⟨i, present⟩
  rw [Heap.define, Array.getElem?_modify] at present
  split at present
  · rcases Option.map_eq_some_iff.mp present with ⟨old, oldPresent, same⟩
    subst same
    rcases Bindings.mem_insert entryMember with kept | new
    · exact all old (Array.mem_of_getElem? oldPresent) entry kept
    · rw [new]
      exact holds
  · exact all s (Array.mem_of_getElem? present) entry entryMember

theorem All.create (all : heap.All P) (enclosing : Option ScopeId) :
    (heap.create enclosing).All P := by
  intro s member entry entryMember
  rcases Array.mem_push.mp member with old | new
  · exact all s old entry entryMember
  · subst new
    cases entryMember

theorem All.empty : (Heap.empty : Heap α).All P := by
  intro s member
  cases Array.not_mem_empty s member

end Heap

end ScopedScript
