import ScopedScript.Proofs.Scoping.Worlds
namespace ScopedScript

/-!
# Reading, writing and declaring variables on both sides

For a reference whose distance is known, the machine reaches the scope that holds the variable, and the
map of the evaluator has the cell of the same variable.  So a read gives the same value on both sides, or
the same error when a global name is missing, and a write changes one name of one scope on one side and
one cell on the other.
-/

open Cells (Env Store)
open Resolution (ScopeChain distance? distance?_cons distance?_extended extended Fresh unready)

section

variable {known : Known} {depth : Nat} {isOpen : Bool} {w : World} {chain : ScopeChain}
  {notReady : Option String} {env : Env} {scope : ScopeId} {name : String} {value other : Value}

/-! ## One variable gets a value -/

theorem Grows.define (w : World) (scope : ScopeId) (name : String) (value : Value) (store : Store)
    (captured : store.captured = w.store.captured) :
    Grows w { w with
      state := { w.state with heap := w.state.heap.define scope name value }, store } := by
  refine ⟨?_, ?_, ?_, fun _ _ _ => id, ?_⟩
  · exact Nat.le_of_eq (Heap.nextId_define _ _ _ _).symm
  · intro other _
    exact Heap.enclosing?_define _ _ _ _ _
  · intro other wanted bound
    change ((w.state.heap.define scope name value).lookup? other wanted).isSome
    rw [Heap.lookup?_define]
    split
    · rfl
    · exact bound
  · intro index env found
    change store.captured[index]? = some env
    rw [captured]
    exact found

/-- A local variable gets a value in its scope and in its cell.  A function may have to find itself under
the new name, so that its two sides need be alike only afterwards. -/
theorem Moved.setLocal (agree : Agree known depth w) {cell : Cells.CellId}
    (placed : w.layout scope name = some cell)
    (alike : Alike known { w with
      state := { w.state with heap := w.state.heap.define scope name value },
      store := { w.store with cells := w.store.cells.setIfInBounds cell other } } value other) :
    Moved known depth isOpen w { w with
      state := { w.state with heap := w.state.heap.define scope name value },
      store := { w.store with cells := w.store.cells.setIfInBounds cell other } } := by
  have grows := Grows.define w scope name value
    { w.store with cells := w.store.cells.setIfInBounds cell other } rfl
  rcases agree.laidOut scope name cell placed with ⟨isLocal, below, inside⟩
  refine ⟨?_, grows, rfl, fun _ _ _ => rfl, rfl⟩
  refine ⟨agree.host, agree.sink, agree.identity, agree.depth, agree.distances, ?_, ?_, ?_,
    agree.apart, ?_⟩
  · intro wanted
    change Option.Rel _ ((w.state.heap.define scope name value).lookup? globalScope wanted) _
    rw [Heap.lookup?_define, if_neg fun same => isLocal same.1]
    exact grows.alike? (agree.globals wanted)
  · intro holder wanted found held placedToo bound
    change (w.state.heap.define scope name value).lookup? holder wanted = some held at bound
    change ∃ content, (w.store.cells.setIfInBounds cell other)[found]? = some content ∧ _
    rw [Heap.lookup?_define] at bound
    split at bound
    · rename_i same
      rcases same with ⟨sameScope, sameName, _⟩
      subst sameScope sameName
      cases placed.symm.trans placedToo
      cases bound
      refine ⟨other, ?_, alike⟩
      rw [Array.getElem?_setIfInBounds_self_of_lt inside]
    · rename_i different
      rcases agree.contents holder wanted found held placedToo bound with ⟨content, atCell, alikeToo⟩
      have apart : cell ≠ found := by
        intro same
        subst same
        rcases agree.apart _ _ _ _ _ placed placedToo with ⟨sameScope, sameName⟩
        subst sameScope sameName
        exact different ⟨rfl, rfl, below⟩
      refine ⟨content, ?_, grows.alike alikeToo⟩
      rw [Array.getElem?_setIfInBounds_ne apart]
      exact atCell
  · intro holder wanted found placedToo
    rcases agree.laidOut holder wanted found placedToo with ⟨isLocalToo, belowToo, insideToo⟩
    refine ⟨isLocalToo, Nat.lt_of_lt_of_le belowToo grows.scopes, ?_⟩
    change found < (w.store.cells.setIfInBounds cell other).size
    rw [Array.size_setIfInBounds]
    exact insideToo
  · intro holder wanted isLocalToo bound
    change ((w.state.heap.define scope name value).lookup? holder wanted).isSome at bound
    rw [Heap.lookup?_define] at bound
    split at bound
    · rename_i same
      rcases same with ⟨sameScope, sameName, _⟩
      subst sameScope sameName
      exact Option.isSome_iff_exists.mpr ⟨cell, placed⟩
    · exact agree.covered holder wanted isLocalToo bound

/-- A global variable gets a value. -/
theorem Moved.setGlobal (agree : Agree known depth w) (exists_global : globalScope < w.state.heap.nextId)
    (isGlobal : scope = globalScope) (name : String)
    (alike : Alike known { w with
      state := { w.state with heap := w.state.heap.define scope name value },
      store := { w.store with globals := w.store.globals.insert name other } } value other) :
    Moved known depth isOpen w { w with
      state := { w.state with heap := w.state.heap.define scope name value },
      store := { w.store with globals := w.store.globals.insert name other } } := by
  subst isGlobal
  have grows := Grows.define w globalScope name value
    { w.store with globals := w.store.globals.insert name other } rfl
  have elsewhere : ∀ holder wanted, holder ≠ globalScope →
      (w.state.heap.define globalScope name value).lookup? holder wanted =
        w.state.heap.lookup? holder wanted := by
    intro holder wanted isLocal
    rw [Heap.lookup?_define, if_neg fun same => isLocal same.1.symm]
  refine ⟨?_, grows, rfl, fun _ _ _ => rfl, rfl⟩
  refine ⟨agree.host, agree.sink, agree.identity, agree.depth, agree.distances, ?_, ?_, ?_,
    agree.apart, ?_⟩
  · intro wanted
    change Option.Rel _ ((w.state.heap.define globalScope name value).lookup? globalScope wanted)
      ((w.store.globals.insert name other).find? wanted)
    rw [Heap.lookup?_define, Bindings.find?_insert]
    by_cases same : name = wanted
    · rw [if_pos ⟨rfl, same, exists_global⟩, if_pos same]
      exact .some alike
    · rw [if_neg fun both => same both.2.1, if_neg same]
      exact grows.alike? (agree.globals wanted)
  · intro holder wanted found held placed bound
    have isLocal := (agree.laidOut holder wanted found placed).1
    change (w.state.heap.define globalScope name value).lookup? holder wanted = some held at bound
    rw [elsewhere holder wanted isLocal] at bound
    rcases agree.contents holder wanted found held placed bound with ⟨content, atCell, alikeToo⟩
    exact ⟨content, atCell, grows.alike alikeToo⟩
  · intro holder wanted found placed
    rcases agree.laidOut holder wanted found placed with ⟨isLocal, below, inside⟩
    exact ⟨isLocal, Nat.lt_of_lt_of_le below grows.scopes, inside⟩
  · intro holder wanted isLocal bound
    change ((w.state.heap.define globalScope name value).lookup? holder wanted).isSome at bound
    rw [elsewhere holder wanted isLocal] at bound
    exact agree.covered holder wanted isLocal bound

theorem Represents.exists_global (represents : Represents w chain notReady scope env) :
    globalScope < w.state.heap.nextId :=
  Nat.lt_of_le_of_lt (Nat.zero_le scope) represents.exists_scope

/-! ## By distance and by name -/

/-- A read by distance finds the variable bound, and both sides read the same. -/
theorem read_alike (agree : Agree known depth w)
    (represents : Represents w chain notReady w.state.scope env) {ref : RefId} {target : Identifier}
    (ready : notReady ≠ some target.name) (isKnown : known ref (distance? chain target.name)) :
    (∃ value other, w.state.read ref target = .ok value ∧
      Cells.read env target w.store = (.done other, w.store) ∧ Alike known w value other) ∨
    (∃ error, w.state.read ref target = .error (.runtime error) ∧
      Cells.read env target w.store = (.failed error, w.store)) := by
  unfold State.read Cells.read
  rw [agree.distances ref _ isKnown]
  cases near : distance? chain target.name with
  | none =>
      rw [represents.absent target.name near]
      dsimp only
      rw [Heap.get, Heap.get?_globalScope]
      have globals := agree.globals target.name
      generalize w.state.heap.lookup? globalScope target.name = found at globals
      generalize w.store.globals.find? target.name = foundToo at globals
      cases globals with
      | none => exact .inr ⟨_, rfl, rfl⟩
      | some alike => exact .inl ⟨_, _, rfl, rfl, alike⟩
  | some distance =>
      rcases represents.present target.name distance near with
        ⟨holder, cell, outward, placed, found, bound⟩
      have isBound : (w.state.heap.lookup? holder target.name).isSome :=
        bound.resolve_right fun impossible => ready impossible.1
      rcases Option.isSome_iff_exists.mp isBound with ⟨value, held⟩
      rcases agree.contents holder target.name cell value placed held with ⟨other, atCell, alike⟩
      refine .inl ⟨value, other, ?_, ?_, alike⟩
      · dsimp only
        rw [Heap.getAt, Heap.ancestor, outward]
        dsimp only
        rw [held]
      · rw [found]
        dsimp only
        rw [Array.getD_eq_getD_getElem?, atCell]
        rfl

/-- A write by distance reaches the scope of the variable, and both sides change the same variable. -/
theorem write_alike (agree : Agree known depth w)
    (represents : Represents w chain notReady w.state.scope env) {ref : RefId} {target : Identifier}
    (isKnown : known ref (distance? chain target.name)) (alike : Alike known w value other) :
    (∃ later : World, w.state.assign ref target value = (later.state, .ok ()) ∧
      Cells.write env target other w.store = (.done (), later.store) ∧
      Moved known depth false w later) ∨
    (∃ error, w.state.assign ref target value = (w.state, .error (.runtime error)) ∧
      Cells.write env target other w.store = (.failed error, w.store)) := by
  unfold State.assign Cells.write
  rw [agree.distances ref _ isKnown]
  cases near : distance? chain target.name with
  | none =>
      rw [represents.absent target.name near]
      dsimp only [Heap.assign, Heap.assign?]
      rw [Heap.holder?_globalScope]
      have globals := agree.globals target.name
      generalize w.state.heap.lookup? globalScope target.name = found at globals
      generalize w.store.globals.find? target.name = foundToo at globals
      cases globals with
      | none => exact .inr ⟨_, rfl, rfl⟩
      | some _ =>
          have alikeLater := (Grows.define w globalScope target.name value
            { w.store with globals := w.store.globals.insert target.name other } rfl).alike alike
          exact .inl ⟨_, rfl, rfl, Moved.setGlobal agree represents.exists_global rfl _ alikeLater⟩
  | some distance =>
      rcases represents.present target.name distance near with
        ⟨holder, cell, outward, placed, found, _⟩
      rw [found]
      dsimp only [Heap.assignAt]
      rw [Heap.ancestor, outward]
      have alikeLater := (Grows.define w holder target.name value
        { w.store with cells := w.store.cells.setIfInBounds cell other } rfl).alike alike
      exact .inl ⟨_, rfl, rfl, Moved.setLocal agree placed alikeLater⟩

/-! ## Declarations -/

/-- Once the name that was not ready is bound, every name is. -/
theorem Represents.made_ready (represents : Represents w chain notReady scope env)
    (only : ∀ wanted, notReady = some wanted → (w.state.heap.lookup? scope wanted).isSome) :
    Represents w chain none scope env := by
  refine ⟨represents.exists_scope, represents.topLevel, represents.inside, represents.absent, ?_⟩
  intro wanted distance near
  rcases represents.present wanted distance near with ⟨holder, cell, outward, placed, found, bound⟩
  refine ⟨holder, cell, outward, placed, found, .inl ?_⟩
  rcases bound with bound | ⟨waiting, here⟩
  · exact bound
  · subst here
    cases outward
    exact only wanted waiting

theorem Represents.define (represents : Represents w chain notReady w.state.scope env)
    (only : ∀ wanted, notReady = some wanted → wanted = name) (value : Value) (store : Store)
    (captured : store.captured = w.store.captured) :
    Represents { w with state := w.state.define name value, store } chain none w.state.scope env := by
  refine ((Grows.define w w.state.scope name value store captured).represents represents).made_ready ?_
  intro wanted waiting
  rw [only wanted waiting]
  change ((w.state.heap.define w.state.scope name value).lookup? w.state.scope name).isSome
  rw [Heap.lookup?_define, if_pos ⟨rfl, rfl, represents.exists_scope⟩]
  rfl

/-- A name that is declared in the current scope gets its value, and then is ready. -/
theorem define_alike (agree : Agree known depth w)
    (represents : Represents w chain notReady w.state.scope env)
    (here : chain ≠ [] → distance? chain name = some 0)
    (only : ∀ wanted, notReady = some wanted → wanted = name)
    (alike : ∀ later, Grows w later → Represents later chain none w.state.scope env →
      Alike known later value other) :
    ∃ later, later.state = w.state.define name value ∧
      Cells.define env name other w.store = (.done (), later.store) ∧
      Moved known depth isOpen w later ∧ Represents later chain none later.state.scope env := by
  unfold State.define Cells.define
  cases chain with
  | nil =>
      rcases represents.topLevel rfl with ⟨isGlobal, sameEnv⟩
      subst sameEnv
      have ready := represents.define only value
        { w.store with globals := w.store.globals.insert name other } rfl
      have grows := Grows.define w w.state.scope name value
        { w.store with globals := w.store.globals.insert name other } rfl
      exact ⟨_, rfl, rfl, Moved.setGlobal agree represents.exists_global isGlobal name
        (alike _ grows ready), ready⟩
  | cons innermost outer =>
      rcases represents.present name 0 (here nofun) with ⟨holder, cell, outward, placed, found, _⟩
      cases outward
      rw [found]
      have ready := represents.define only value
        { w.store with cells := w.store.cells.setIfInBounds cell other } rfl
      have grows := Grows.define w w.state.scope name value
        { w.store with cells := w.store.cells.setIfInBounds cell other } rfl
      exact ⟨_, rfl, rfl, Moved.setLocal agree placed (alike _ grows ready), ready⟩

/-- A name that is new in the innermost scope gets a cell of its own. -/
theorem Moved.place (agree : Agree known depth w)
    (exists_scope : w.state.scope < w.state.heap.nextId) (isLocal : w.state.scope ≠ globalScope)
    (unplaced : w.layout w.state.scope name = none) :
    Moved known depth true w { w with
      layout := fun scope wanted =>
        if scope = w.state.scope ∧ wanted = name then some w.store.cells.size
        else w.layout scope wanted,
      store := { w.store with cells := w.store.cells.push .nil } } := by
  have grows : Grows w { w with
      layout := fun scope wanted =>
        if scope = w.state.scope ∧ wanted = name then some w.store.cells.size
        else w.layout scope wanted,
      store := { w.store with cells := w.store.cells.push .nil } } := by
    refine ⟨Nat.le_refl _, fun _ _ => rfl, fun _ _ => id, ?_, fun _ _ => id⟩
    intro scope wanted cell placed
    dsimp only
    rw [if_neg]
    · exact placed
    · rintro ⟨sameScope, sameName⟩
      subst sameScope sameName
      rw [unplaced] at placed
      cases placed
  refine ⟨?_, grows, rfl, ?_, rfl⟩
  · refine ⟨agree.host, agree.sink, agree.identity, agree.depth, agree.distances,
      fun wanted => grows.alike? (agree.globals wanted), ?_, ?_, ?_, ?_⟩
    · intro scope wanted cell held placed bound
      dsimp only at placed bound
      split at placed
      · rename_i same
        rcases same with ⟨sameScope, sameName⟩
        subst sameScope sameName
        have covered := agree.covered _ _ isLocal (Option.isSome_iff_exists.mpr ⟨held, bound⟩)
        rw [unplaced] at covered
        cases covered
      · rcases agree.contents scope wanted cell held placed bound with ⟨content, atCell, alike⟩
        refine ⟨content, ?_, grows.alike alike⟩
        dsimp only
        rw [Array.getElem?_push, if_neg (Nat.ne_of_lt (agree.laidOut _ _ _ placed).2.2)]
        exact atCell
    · intro scope wanted cell placed
      dsimp only at placed ⊢
      rw [Array.size_push]
      split at placed
      · rename_i same
        cases placed
        rw [same.1]
        exact ⟨isLocal, exists_scope, Nat.lt_succ_self _⟩
      · rcases agree.laidOut scope wanted cell placed with ⟨isLocalToo, below, inside⟩
        exact ⟨isLocalToo, below, Nat.lt_succ_of_lt inside⟩
    · intro scope wanted holder other cell placed placedToo
      dsimp only at placed placedToo
      split at placed <;> split at placedToo
      · rename_i first second
        exact ⟨first.1.trans second.1.symm, first.2.trans second.2.symm⟩
      · cases placed
        exact absurd (agree.laidOut _ _ _ placedToo).2.2 (Nat.lt_irrefl _)
      · cases placedToo
        exact absurd (agree.laidOut _ _ _ placed).2.2 (Nat.lt_irrefl _)
      · exact agree.apart _ _ _ _ _ placed placedToo
    · intro scope wanted isLocalToo bound
      rcases Option.isSome_iff_exists.mp (agree.covered scope wanted isLocalToo bound) with
        ⟨cell, placed⟩
      exact Option.isSome_iff_exists.mpr ⟨cell, grows.layout scope wanted cell placed⟩
  · intro scope _ outside
    funext wanted
    dsimp only
    rw [if_neg fun same => outside rfl same.1]

/-- A declaration makes the name known on both sides, at distance 0 and with a cell of its own. -/
theorem declare_alike (agree : Agree known depth w) {target : Identifier}
    (represents : Represents w chain none w.state.scope env) (exact : Exact w w.state.scope chain)
    (fresh : Fresh target.name chain) :
    ∃ later newEnv, later.state = w.state ∧
      Cells.declare env target.name w.store = (.done newEnv, later.store) ∧
      Moved known depth true w later ∧
      Represents later (extended target.name chain) (unready target chain) later.state.scope newEnv ∧
      Exact later later.state.scope (extended target.name chain) := by
  cases chain with
  | nil =>
      rcases represents.topLevel rfl with ⟨_, sameEnv⟩
      subst sameEnv
      exact ⟨w, .topLevel, rfl, rfl, .refl agree, represents, trivial⟩
  | cons innermost outer =>
      rcases represents.inside nofun with ⟨isLocal, names, sameEnv⟩
      subst sameEnv
      have unplaced : w.layout w.state.scope target.name = none := by
        cases placed : w.layout w.state.scope target.name with
        | none => rfl
        | some cell => exact absurd (exact _ (Option.isSome_iff_exists.mpr ⟨cell, placed⟩)) fresh
      have moved := Moved.place agree represents.exists_scope isLocal unplaced
      refine ⟨_, .inside (names.insert target.name w.store.cells.size), ?_, ?_, moved, ?_, ?_⟩
      · rfl
      · rfl
      · refine ⟨represents.exists_scope, nofun, fun _ => ⟨isLocal, _, rfl⟩, ?_, ?_⟩
        · intro wanted far
          rw [distance?_extended] at far
          split at far
          · cases far
          · rename_i different
            change (names.insert target.name w.store.cells.size).find? wanted = none
            rw [Bindings.find?_insert, if_neg different]
            exact represents.absent wanted far
        · intro wanted distance near
          rw [distance?_extended] at near
          by_cases same : target.name = wanted
          · rw [if_pos same] at near
            cases near
            subst same
            refine ⟨w.state.scope, w.store.cells.size, rfl, if_pos ⟨rfl, rfl⟩, ?_, .inr ⟨rfl, rfl⟩⟩
            change (names.insert target.name w.store.cells.size).find? target.name = _
            rw [Bindings.find?_insert, if_pos rfl]
          · rw [if_neg same] at near
            rcases represents.present wanted distance near with
              ⟨holder, cell, outward, placed, found, bound⟩
            refine ⟨holder, cell, outward, moved.grows.layout holder wanted cell placed, ?_, ?_⟩
            · change (names.insert target.name w.store.cells.size).find? wanted = _
              rw [Bindings.find?_insert, if_neg same]
              exact found
            · exact .inl (bound.resolve_right fun impossible => nomatch impossible.1)
      · intro wanted placed
        dsimp only at placed
        split at placed
        · rename_i same
          rw [same.2]
          exact List.mem_cons_self
        · exact List.mem_cons_of_mem _ (exact wanted placed)

end

end ScopedScript
