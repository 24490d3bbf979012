import ScopedScript.Proofs.Scoping.Bound
import ScopedScript.Proofs.Scoping.CellEvaluator
namespace ScopedScript

/-!
# Scopes against cells

The step machine keeps local variables in linked scopes and finds them by distance; the evaluator keeps
them in cells and finds them by name.  A `Layout` says which cell stands for a name of a scope, and a
`World` puts a state and a store next to each other under a layout.

`Represents` is the heart of the matter: for the scopes that the analysis had open at a piece of the
program, walking as many links as the distance of a name leads to a scope whose cell for the name is the
one that the map has.  Nothing that a run does can make this wrong again, because links never change,
names never become unbound and cells are never given to another name; this is `Grows`.
-/

open Cells (CellId Env Store)
open Resolution (ScopeChain distance? extended extendedAll Fresh AllFresh)

/-- Which cell stands for a name of a scope. -/
abbrev Layout := ScopeId → String → Option CellId

/-- A state of the machine and a store of the evaluator side by side. -/
structure World where
  state : State
  layout : Layout
  store : Store

/-- The scopes that the analysis had open are those around a scope of the heap, and the map has the
cells of their names.  The names are bound, apart from one whose initializer is under way. -/
structure Represents (w : World) (chain : ScopeChain) (unready : Option String) (scope : ScopeId)
    (env : Env) : Prop where
  exists_scope : scope < w.state.heap.nextId
  topLevel : chain = [] → scope = globalScope ∧ env = .topLevel
  inside : chain ≠ [] → scope ≠ globalScope ∧ ∃ names, env = .inside names
  absent : ∀ name, distance? chain name = none → env.find? name = none
  present : ∀ name distance, distance? chain name = some distance →
    ∃ holder cell, w.state.heap.ancestor? scope distance = some holder ∧
      w.layout holder name = some cell ∧ env.find? name = some cell ∧
      ((w.state.heap.lookup? holder name).isSome ∨ unready = some name ∧ distance = 0)

/-- The innermost scope has cells for the names that the analysis had declared in it and no others. -/
def Exact (w : World) (scope : ScopeId) : ScopeChain → Prop
  | [] => True
  | innermost :: _ => ∀ name, (w.layout scope name).isSome → name ∈ innermost

/-- The parameters and the body of a function that was declared inside these scopes are bound. -/
def Closes (known : Known) (chain : ScopeChain) (parameters : List Identifier) (body : List Stmt) :
    Prop :=
  AllFresh parameters ([] :: chain) ∧ Stmt.AllBound known (extendedAll parameters ([] :: chain)) body

/-- Whether a value is a declared function. -/
def Value.isClosure : Value → Bool
  | .function _ (.closure _) => true
  | _ => false

/-- A value of the machine and what it is for the evaluator.  Declared functions differ in how they
remember their surroundings; all other values are the same. -/
inductive Alike (known : Known) (w : World) : Value → Value → Prop where
  | plain {value : Value} (notClosure : value.isClosure = false) : Alike known w value value
  | closure {identity : Nat} {name : String} {parameters : List Identifier} {body : List Stmt}
      {scope : ScopeId} {index : Nat} {chain : ScopeChain} {env : Env}
      (captured : w.store.captured[index]? = some env) (represents : Represents w chain none scope env)
      (closes : Closes known chain parameters body) :
      Alike known w (.function identity (.closure ⟨name, parameters, body, scope⟩))
        (.function identity (.closure ⟨name, parameters, body, index⟩))

/-- The state and the store agree on everything that a program can notice. -/
structure Agree (known : Known) (depth : Nat) (w : World) : Prop where
  host : w.state.host = w.store.host
  sink : w.state.sink = w.store.sink
  identity : w.state.identity = w.store.identity
  depth : w.state.depth = depth
  distances : ∀ ref distance, known ref distance → w.state.distances.find? ref = distance
  globals : ∀ name, Option.Rel (Alike known w) (w.state.heap.lookup? globalScope name)
    (w.store.globals.find? name)
  contents : ∀ scope name cell value, w.layout scope name = some cell →
    w.state.heap.lookup? scope name = some value →
    ∃ other, w.store.cells[cell]? = some other ∧ Alike known w value other
  laidOut : ∀ scope name cell, w.layout scope name = some cell →
    scope ≠ globalScope ∧ scope < w.state.heap.nextId ∧ cell < w.store.cells.size
  apart : ∀ scope name other otherName cell, w.layout scope name = some cell →
    w.layout other otherName = some cell → scope = other ∧ name = otherName
  covered : ∀ scope name, scope ≠ globalScope → (w.state.heap.lookup? scope name).isSome →
    (w.layout scope name).isSome

/-- What can be said of a world later in a run: there is more of everything, and what was there has kept
its place. -/
structure Grows (w later : World) : Prop where
  scopes : w.state.heap.nextId ≤ later.state.heap.nextId
  links : ∀ scope, scope < w.state.heap.nextId →
    later.state.heap.enclosing? scope = w.state.heap.enclosing? scope
  bound : ∀ scope name, (w.state.heap.lookup? scope name).isSome →
    (later.state.heap.lookup? scope name).isSome
  layout : ∀ scope name cell, w.layout scope name = some cell → later.layout scope name = some cell
  captured : ∀ (index : Nat) env, w.store.captured[index]? = some env →
    later.store.captured[index]? = some env

namespace Grows

variable {known : Known} {w middle later : World} {chain : ScopeChain} {unready : Option String}
  {scope : ScopeId} {env : Env}

theorem refl (w : World) : Grows w w :=
  ⟨Nat.le_refl _, fun _ _ => rfl, fun _ _ => id, fun _ _ _ => id, fun _ _ => id⟩

theorem trans (first : Grows w middle) (second : Grows middle later) : Grows w later := by
  refine ⟨Nat.le_trans first.scopes second.scopes, ?_, ?_, ?_, ?_⟩
  · intro scope below
    rw [second.links scope (Nat.lt_of_lt_of_le below first.scopes), first.links scope below]
  · exact fun scope name bound => second.bound scope name (first.bound scope name bound)
  · exact fun scope name cell placed => second.layout scope name cell (first.layout scope name cell placed)
  · exact fun index env found => second.captured index env (first.captured index env found)

theorem ancestor?_eq (grows : Grows w later) (distance : Nat) {scope : ScopeId}
    (below : scope < w.state.heap.nextId) :
    later.state.heap.ancestor? scope distance = w.state.heap.ancestor? scope distance := by
  induction distance generalizing scope with
  | zero => rfl
  | succ distance inductionHypothesis =>
      rw [Heap.ancestor?, Heap.ancestor?, grows.links scope below]
      cases link : w.state.heap.enclosing? scope with
      | none => rfl
      | some outer => exact inductionHypothesis (Nat.lt_trans (Heap.enclosing?_lt link) below)

theorem represents (grows : Grows w later) (represents : Represents w chain unready scope env) :
    Represents later chain unready scope env := by
  refine ⟨Nat.lt_of_lt_of_le represents.exists_scope grows.scopes, represents.topLevel,
    represents.inside, represents.absent, ?_⟩
  intro name distance near
  rcases represents.present name distance near with ⟨holder, cell, outward, placed, found, bound⟩
  refine ⟨holder, cell, ?_, grows.layout holder name cell placed, found, ?_⟩
  · rw [grows.ancestor?_eq distance represents.exists_scope]
    exact outward
  · exact bound.imp_left (grows.bound holder name)

theorem alike (grows : Grows w later) {value other : Value} (alike : Alike known w value other) :
    Alike known later value other := by
  cases alike with
  | plain notClosure => exact .plain notClosure
  | closure captured represents closes =>
      exact .closure (grows.captured _ _ captured) (grows.represents represents) closes

theorem alike? (grows : Grows w later) {value other : Option Value}
    (alike : Option.Rel (Alike known w) value other) :
    Option.Rel (Alike known later) value other := by
  cases alike with
  | some alike => exact .some (grows.alike alike)
  | none => exact .none

end Grows

end ScopedScript
