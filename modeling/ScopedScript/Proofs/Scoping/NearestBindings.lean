import ScopedScript.Machine.Run
import ScopedScript.Proofs.Machine.Heaps
import ScopedScript.Proofs.Scoping.ScopeTrees
import ScopedScript.Scope.ByName
namespace ScopedScript

/-!
# The nearest binding, by name and by distance

A search by name goes outward from scope to scope until one of them binds the name.  `Heap.Nearest` says
where it stops in terms of distances: the scope so many links outward binds the name, and none that is nearer
does.  So a search finds the same scope as a walk by the least distance, whatever the scopes in between bind.

A write changes one name in one scope.  As that scope had the name before, no search ends elsewhere
afterwards: it is seen from where the name means that binding, and from nowhere else.

Only links to older scopes are followed, and `create` makes no others for scopes that are there.  So a walk
outward comes to an end on every heap.
-/

namespace Heap

variable {α β : Type} {heap : Heap α} {scope outer holder : ScopeId} {name : String} {distance : Nat}

/-- The nearest scope outward that binds a name, and how many links away it is. -/
structure Nearest (heap : Heap α) (scope : ScopeId) (name : String) (distance : Nat)
    (holder : ScopeId) : Prop where
  reached : heap.ancestor? scope distance = some holder
  bound : (heap.lookup? holder name).isSome
  nearer : ∀ earlier < distance, ∀ other, heap.ancestor? scope earlier = some other →
    heap.lookup? other name = none

/-! ## One link further out -/

theorem ancestor?_succ (link : heap.enclosing? scope = some outer) (distance : Nat) :
    heap.ancestor? scope (distance + 1) = heap.ancestor? outer distance := by
  rw [ancestor?, link]

theorem ancestor?_succ_of_outermost (outermost : heap.enclosing? scope = none) (distance : Nat) :
    heap.ancestor? scope (distance + 1) = none := by
  rw [ancestor?, outermost]

theorem nearest_zero (bound : (heap.lookup? scope name).isSome) : heap.Nearest scope name 0 scope where
  reached := rfl
  bound := bound
  nearer := fun _ before => absurd before (Nat.not_lt_zero _)

theorem Nearest.outward (nearest : heap.Nearest outer name distance holder)
    (unbound : heap.lookup? scope name = none) (link : heap.enclosing? scope = some outer) :
    heap.Nearest scope name (distance + 1) holder where
  reached := (ancestor?_succ link distance).trans nearest.reached
  bound := nearest.bound
  nearer := by
    intro earlier before other found
    cases earlier with
    | zero =>
        cases found
        exact unbound
    | succ earlier =>
        rw [ancestor?_succ link] at found
        exact nearest.nearer earlier (Nat.lt_of_succ_lt_succ before) other found

/-- The nearest binding is in the scope itself, or else it is the nearest one of the scope around. -/
theorem Nearest.cases (nearest : heap.Nearest scope name distance holder) :
    (distance = 0 ∧ holder = scope) ∨
      ∃ less outer, distance = less + 1 ∧ heap.lookup? scope name = none ∧
        heap.enclosing? scope = some outer ∧ heap.Nearest outer name less holder := by
  cases distance with
  | zero =>
      cases nearest.reached
      exact .inl ⟨rfl, rfl⟩
  | succ less =>
      cases link : heap.enclosing? scope with
      | none =>
          have reached := nearest.reached
          rw [ancestor?_succ_of_outermost link] at reached
          cases reached
      | some outer =>
          refine .inr ⟨less, outer, rfl, nearest.nearer 0 (Nat.succ_pos less) scope rfl, rfl, ?_⟩
          constructor
          · exact (ancestor?_succ link less).symm.trans nearest.reached
          · exact nearest.bound
          · intro earlier before other found
            rw [← ancestor?_succ link] at found
            exact nearest.nearer (earlier + 1) (Nat.succ_lt_succ before) other found

/-! ## The search by name -/

theorem Nearest.holder?_eq (nearest : heap.Nearest scope name distance holder) :
    heap.holder? scope name = some holder := by
  induction distance generalizing scope with
  | zero =>
      cases nearest.reached
      exact holder?_of_bound nearest.bound
  | succ less inductionHypothesis =>
      rcases nearest.cases with ⟨impossible, -⟩ | ⟨_, outer, same, unbound, link, further⟩
      · cases impossible
      · cases same
        rw [holder?_of_link unbound link]
        exact inductionHypothesis further

/-- The search by name either stops at the nearest binding, or no scope outward binds the name. -/
theorem nearest_or_unbound (heap : Heap α) (scope : ScopeId) (name : String) :
    (∃ distance holder, heap.Nearest scope name distance holder) ∨
      (heap.holder? scope name = none ∧
        ∀ distance other, heap.ancestor? scope distance = some other → heap.lookup? other name = none) := by
  induction scope using Nat.strongRecOn with
  | ind scope inductionHypothesis =>
      cases bound : heap.lookup? scope name with
      | some value => exact .inl ⟨0, scope, nearest_zero (by rw [bound]; rfl)⟩
      | none =>
          cases link : heap.enclosing? scope with
          | none =>
              refine .inr ⟨holder?_of_outermost bound link, fun distance other found => ?_⟩
              cases distance with
              | zero =>
                  cases found
                  exact bound
              | succ distance =>
                  rw [ancestor?_succ_of_outermost link] at found
                  cases found
          | some outer =>
              rcases inductionHypothesis outer (enclosing?_lt link) with ⟨distance, holder, nearest⟩ | ⟨none, unbound⟩
              · exact .inl ⟨distance + 1, holder, nearest.outward bound link⟩
              · refine .inr ⟨(holder?_of_link bound link).trans none, fun distance other found => ?_⟩
                cases distance with
                | zero =>
                    cases found
                    exact bound
                | succ distance =>
                    rw [ancestor?_succ link] at found
                    exact unbound distance other found

theorem holder?_eq_some_iff :
    heap.holder? scope name = some holder ↔ ∃ distance, heap.Nearest scope name distance holder := by
  constructor
  · intro found
    rcases heap.nearest_or_unbound scope name with ⟨distance, other, nearest⟩ | ⟨none, -⟩
    · rw [nearest.holder?_eq] at found
      cases found
      exact ⟨distance, nearest⟩
    · rw [none] at found
      cases found
  · rintro ⟨distance, nearest⟩
    exact nearest.holder?_eq

theorem holder?_eq_none_iff : heap.holder? scope name = none ↔
    ∀ distance other, heap.ancestor? scope distance = some other → heap.lookup? other name = none := by
  constructor
  · intro none
    rcases heap.nearest_or_unbound scope name with ⟨distance, other, nearest⟩ | ⟨-, unbound⟩
    · rw [nearest.holder?_eq] at none
      cases none
    · exact unbound
  · intro unbound
    rcases heap.nearest_or_unbound scope name with ⟨distance, holder, nearest⟩ | ⟨none, -⟩
    · have bound := nearest.bound
      rw [unbound distance holder nearest.reached] at bound
      cases bound
    · exact none

theorem Nearest.ancestor_eq (nearest : heap.Nearest scope name distance holder) :
    heap.ancestor scope distance = .ok holder := by
  rw [ancestor, nearest.reached]

/-! ## A write to a binding that is there -/

theorem lt_nextId_of_bound (bound : (heap.lookup? scope name).isSome) : scope < heap.nextId := by
  by_contra beyond
  unfold lookup? at bound
  rw [Array.getElem?_eq_none (Nat.not_lt.mp beyond)] at bound
  cases bound

theorem lookup?_define_self (bound : (heap.lookup? holder name).isSome) (value : α) :
    (heap.define holder name value).lookup? holder name = some value := by
  rw [lookup?_define, if_pos ⟨rfl, rfl, lt_nextId_of_bound bound⟩]

theorem lookup?_define_other {other : ScopeId} {wanted : String} (different : (other, wanted) ≠ (holder, name))
    (value : α) : (heap.define holder name value).lookup? other wanted = heap.lookup? other wanted := by
  rw [lookup?_define, if_neg]
  rintro ⟨rfl, rfl, -⟩
  exact different rfl

/-- Where a name is bound already, binding it again does not move any search. -/
theorem holder?_define (bound : (heap.lookup? holder name).isSome) (value : α) (scope : ScopeId)
    (wanted : String) : (heap.define holder name value).holder? scope wanted = heap.holder? scope wanted := by
  apply holder?_congr
  · intro other
    by_cases same : (other, wanted) = (holder, name)
    · cases same
      rw [lookup?_define_self bound, bound]
      rfl
    · rw [lookup?_define_other same]
  · intro other
    rw [enclosing?_define]

/-- After a write, a name has the new value where it means the binding that was written to. -/
theorem get?_define_of_holder (bound : (heap.lookup? holder name).isSome) (value : α)
    (found : heap.holder? scope name = some holder) :
    (heap.define holder name value).get? scope name = some value := by
  rw [get?, holder?_define bound, found, Option.bind_some, lookup?_define_self bound]

/-- Everywhere else it has its old value, or still none. -/
theorem get?_define_of_not_holder (bound : (heap.lookup? holder name).isSome) (value : α)
    (elsewhere : heap.holder? scope name ≠ some holder) :
    (heap.define holder name value).get? scope name = heap.get? scope name := by
  rw [get?, get?, holder?_define bound]
  cases found : heap.holder? scope name with
  | none => rfl
  | some other =>
      apply lookup?_define_other
      intro same
      cases same
      exact elsewhere found

/-! ## Both kinds of access -/

section Access

variable {target : Identifier}

theorem get_eq_of_get? {value : α} (found : heap.get? scope target.name = some value) :
    heap.get scope target = .ok value := by
  rw [get, found]

theorem get_congr {later : Heap α} (same : later.get? scope target.name = heap.get? scope target.name) :
    later.get scope target = heap.get scope target := by
  rw [get, get, same]

/-- Both ways of reading give the value of the nearest binding. -/
theorem Nearest.reads (nearest : heap.Nearest scope target.name distance holder) :
    ∃ value, heap.get scope target = .ok value ∧ heap.getAt scope distance target.name = .ok value := by
  rcases Option.isSome_iff_exists.mp nearest.bound with ⟨value, found⟩
  refine ⟨value, get_eq_of_get? ?_, ?_⟩
  · rw [get?, nearest.holder?_eq, Option.bind_some, found]
  · simp only [getAt, nearest.ancestor_eq, found]

/-- Both ways of writing bind the name anew in the scope of the nearest binding. -/
theorem Nearest.writes (nearest : heap.Nearest scope target.name distance holder) (value : α) :
    heap.assign scope target value = (heap.define holder target.name value, .ok ()) ∧
      heap.assignAt scope distance target.name value = .ok (heap.define holder target.name value) := by
  constructor
  · simp only [assign, assign?, nearest.holder?_eq]
  · simp only [assignAt, nearest.ancestor_eq]

end Access

end Heap

/-- By name and by the least distance the same binding is read and written, whatever the heap.  A write changes
that binding and no other, no link and no scope; afterwards the new value is read from every scope from which
the name means that binding, and what was read before from every other one.  Where no scope outward binds
the name, reading and writing fail with the name and its line, and nothing is changed. -/
theorem names_as_distances {α : Type} (heap : Heap α) (scope : ScopeId) (target : Identifier) (value : α) :
    (∀ distance holder, heap.Nearest scope target.name distance holder →
      (∃ old, heap.get scope target = .ok old ∧ heap.getAt scope distance target.name = .ok old) ∧
      ∃ after, heap.assign scope target value = (after, .ok ()) ∧
        heap.assignAt scope distance target.name value = .ok after ∧
        after.lookup? holder target.name = some value ∧
        (∀ other name, (other, name) ≠ (holder, target.name) →
          after.lookup? other name = heap.lookup? other name) ∧
        after.nextId = heap.nextId ∧ (∀ other, after.link? other = heap.link? other) ∧
        ∀ other line,
          ((∃ far, heap.Nearest other target.name far holder) →
            after.get other ⟨target.name, line⟩ = .ok value) ∧
          ((¬ ∃ far, heap.Nearest other target.name far holder) →
            after.get other ⟨target.name, line⟩ = heap.get other ⟨target.name, line⟩)) ∧
    ((∀ distance other, heap.ancestor? scope distance = some other →
        heap.lookup? other target.name = none) →
      heap.get scope target = .error ⟨.undefinedVariable target.name, target.line⟩ ∧
      heap.assign scope target value =
        (heap, .error ⟨.undefinedVariable target.name, target.line⟩)) := by
  constructor
  · intro distance holder nearest
    have bound := nearest.bound
    rcases nearest.writes value with ⟨byName, byDistance⟩
    refine ⟨nearest.reads, heap.define holder target.name value, byName, byDistance,
      Heap.lookup?_define_self bound value, fun other name different => Heap.lookup?_define_other different value,
      Heap.nextId_define .., fun other => Heap.link?_define .., fun other line => ⟨fun means => ?_, fun elsewhere => ?_⟩⟩
    · apply Heap.get_eq_of_get?
      exact Heap.get?_define_of_holder bound value (Heap.holder?_eq_some_iff.mpr means)
    · apply Heap.get_congr
      exact Heap.get?_define_of_not_holder bound value fun found => elsewhere (Heap.holder?_eq_some_iff.mp found)
  · intro unbound
    have none := Heap.holder?_eq_none_iff.mpr unbound
    constructor
    · simp only [Heap.get, Heap.get?, none, Option.bind_none]
    · simp only [Heap.assign, Heap.assign?, none]

/-- A name that two scopes bind, one inside of the other, with an empty scope further inside; and a fourth scope
that lies beside them. -/
theorem names_as_distances_shadowed :
    let heap : Heap Nat := ((((Heap.empty.create none).define 0 "x" 1).create (some 0)).define 1 "x" 2
      |>.create (some 1)).create (some 0)
    heap.Nearest 2 "x" 1 1 ∧ heap.Nearest 3 "x" 1 0 ∧
      ∃ after, heap.assign 2 ⟨"x", 7⟩ 5 = (after, .ok ()) ∧ heap.assignAt 2 1 "x" 5 = .ok after ∧
        after.get 1 ⟨"x", 8⟩ = .ok 5 ∧ after.get 3 ⟨"x", 9⟩ = heap.get 3 ⟨"x", 9⟩ ∧
        heap.assign 2 ⟨"y", 7⟩ 5 = (heap, .error ⟨.undefinedVariable "y", 7⟩) := by
  intro heap
  have inner : heap.Nearest 2 "x" 1 1 := by
    refine ⟨rfl, rfl, fun earlier before other found => ?_⟩
    obtain rfl := Nat.lt_one_iff.mp before
    cases found
    rfl
  have beside : heap.Nearest 3 "x" 1 0 := by
    refine ⟨rfl, rfl, fun earlier before other found => ?_⟩
    obtain rfl := Nat.lt_one_iff.mp before
    cases found
    rfl
  have itself : heap.Nearest 1 "x" 0 1 := Heap.nearest_zero rfl
  have unbound : ∀ distance other, heap.ancestor? 2 distance = some other → heap.lookup? other "y" = none := by
    apply Heap.holder?_eq_none_iff.mp
    calc heap.holder? 2 "y"
      _ = heap.holder? 1 "y" := Heap.holder?_of_link rfl rfl
      _ = heap.holder? 0 "y" := Heap.holder?_of_link rfl rfl
      _ = none := Heap.holder?_of_outermost rfl rfl
  rcases (names_as_distances heap 2 ⟨"x", 7⟩ 5).1 1 1 inner with
    ⟨-, after, byName, byDistance, -, -, -, -, reads⟩
  refine ⟨inner, beside, after, byName, byDistance, (reads 1 8).1 ⟨0, itself⟩, (reads 3 9).2 ?_,
    ((names_as_distances heap 2 ⟨"y", 7⟩ 5).2 unbound).2⟩
  rintro ⟨far, means⟩
  cases beside.holder?_eq.symm.trans means.holder?_eq

end ScopedScript
