import ScopedScript.Proofs.Renaming.Pairings
import ScopedScript.Proofs.Scoping.AlikeValues
namespace ScopedScript

/-!
# Values of alpha-equivalent programs

When two alpha-equivalent programs are run, every value of the one has a counterpart in the other.  Functions are
counterparts when their parameters and bodies differ in local names only, inside the maps that they have captured.
In which scopes a function was declared can no longer be seen of it, so the pairings at the declarations of all
functions are kept in a list, which grows while the programs run.

Two maps are counterparts under a pairing when names that mean the same have the same cell in them.
-/

namespace Cells

/-- In two maps, names that mean the same have the same cell, or they are the same global name. -/
inductive Env.Counterpart : Pairing → Env → Env → Prop where
  | topLevel : Counterpart [] .topLevel .topLevel
  | inside {innermost : List (String × String)} {outer : Pairing} {names namesToo : Bindings CellId}
      (cells : ∀ name other, Pairing.Means (innermost :: outer) name other →
        namesToo.find? other = names.find? name ∧ (names.find? name = none → other = name)) :
      Counterpart (innermost :: outer) (.inside names) (.inside namesToo)

namespace Env.Counterpart

variable {pairing : Pairing} {env envToo : Env} {name other : String}

/-- Names that mean the same are found in the same cell, or they are the same global name. -/
theorem find?_eq (same : Counterpart pairing env envToo) (means : pairing.Means name other) :
    envToo.find? other = env.find? name ∧ (env.find? name = none → other = name) := by
  cases same with
  | topLevel => exact ⟨rfl, fun _ => means.symm⟩
  | inside cells => exact cells name other means

theorem enter (same : Counterpart pairing env envToo) : Counterpart ([] :: pairing) env.enter envToo.enter := by
  cases same with
  | topLevel =>
      refine .inside fun name other means => ⟨rfl, fun _ => ?_⟩
      exact (Pairing.means_enter.mp means).symm
  | inside cells => exact .inside fun name other means => cells name other (Pairing.means_enter.mp means)

/-- Names that are declared together get the same new cell. -/
theorem insert {innermost : List (String × String)} {outer : Pairing} {names namesToo : Bindings CellId}
    (same : Counterpart (innermost :: outer) (.inside names) (.inside namesToo))
    (admits : Pairing.Admits (innermost :: outer) name other) (cell : CellId) :
    Counterpart (Pairing.declare name other (innermost :: outer)) (.inside (names.insert name cell))
      (.inside (namesToo.insert other cell)) := by
  refine .inside fun another anotherToo means => ?_
  rw [Bindings.find?_insert, Bindings.find?_insert]
  rcases admits.of_means means with ⟨rfl, rfl⟩ | ⟨apart, before⟩
  · rw [if_pos rfl, if_pos rfl]
    exact ⟨rfl, nofun⟩
  · have apart := apart (List.cons_ne_nil _ _)
    rw [if_neg apart.1.symm, if_neg apart.2.symm]
    exact same.find?_eq before

end Env.Counterpart

end Cells

/-! ## Values -/

/-- A value and its counterpart, given the pairings at the declarations of the functions that have been made. -/
inductive Value.Counterpart (made : List Pairing) : Value → Value → Prop where
  | plain {value : Value} (notClosure : value.isClosure = false) : Counterpart made value value
  | closure (identity : Nat) (name : String) {index : Nat} {pairing inner after : Pairing}
      {parameters parametersToo : List Identifier} {body bodyToo : List Stmt}
      (declared : made[index]? = some pairing)
      (together : Pairing.Parameters ([] :: pairing) parameters parametersToo inner)
      (inside : Stmt.AlphaAll inner body bodyToo after) :
      Counterpart made (.function identity (.closure ⟨name, parameters, body, index⟩))
        (.function identity (.closure ⟨name, parametersToo, bodyToo, index⟩))

/-- Two statements have ended in the same way, with values that are counterparts. -/
inductive Flow.Counterpart (made : List Pairing) : Flow → Flow → Prop where
  | normal : Counterpart made .normal .normal
  | returned {value other : Value} (same : value.Counterpart made other) :
      Counterpart made (.returned value) (.returned other)

variable {made more : List Pairing} {value other : Value}

namespace Value.Counterpart

theorem similar (same : value.Counterpart made other) : Similar value other := by
  cases same with
  | plain notClosure => exact .plain notClosure
  | closure identity name declared together inside => exact .closure _ _ _ _ _ _ _ _ together.length_eq.symm

/-- Counterparts stay counterparts when more functions are made. -/
theorem mono (same : value.Counterpart made other) (grows : made <+: more) : value.Counterpart more other := by
  cases same with
  | plain notClosure => exact .plain notClosure
  | closure identity name declared together inside =>
      rcases grows with ⟨later, rfl⟩
      refine .closure identity name ?_ together inside
      exact List.getElem?_append_left (List.getElem?_eq_some_iff.mp declared).1 ▸ declared

theorem nil : Value.nil.Counterpart made .nil := .plain rfl

end Value.Counterpart

namespace Flow.Counterpart

variable {flow flowToo : Flow}

theorem result (same : flow.Counterpart made flowToo) : flow.result.Counterpart made flowToo.result := by
  cases same with
  | normal => exact .nil
  | returned same => exact same

theorem mono (same : flow.Counterpart made flowToo) (grows : made <+: more) : flow.Counterpart more flowToo := by
  cases same with
  | normal => exact .normal
  | returned same => exact .returned (same.mono grows)

end Flow.Counterpart

/-! ## Stores -/

namespace Cells

/-- Two stores hold counterparts, and are equal otherwise. -/
structure Store.Counterpart (made : List Pairing) (store other : Store) : Prop where
  host : other.host = store.host
  globals : ∀ name, Option.Rel (Value.Counterpart made) (store.globals.find? name) (other.globals.find? name)
  size : other.cells.size = store.cells.size
  cells : ∀ cell, (store.cells.getD cell .nil).Counterpart made (other.cells.getD cell .nil)
  functions : store.captured.size = made.length
  functionsToo : other.captured.size = made.length
  captured : ∀ index pairing, made[index]? = some pairing →
    Env.Counterpart pairing (store.captured.getD index .topLevel) (other.captured.getD index .topLevel)
  identity : other.identity = store.identity
  sink : other.sink = store.sink

namespace Store.Counterpart

variable {store storeToo : Store}

theorem setGlobal (same : store.Counterpart made storeToo) (name : String) (alike : value.Counterpart made other) :
    Counterpart made { store with globals := store.globals.insert name value }
      { storeToo with globals := storeToo.globals.insert name other } :=
  { same with
    globals another := by
      rw [Bindings.find?_insert, Bindings.find?_insert]
      split
      · exact .some alike
      · exact same.globals another }

theorem setCell (same : store.Counterpart made storeToo) (cell : CellId) (alike : value.Counterpart made other) :
    Counterpart made { store with cells := store.cells.setIfInBounds cell value }
      { storeToo with cells := storeToo.cells.setIfInBounds cell other } :=
  { same with
    size := by
      rw [Array.size_setIfInBounds, Array.size_setIfInBounds]
      exact same.size
    cells := related_setIfInBounds same.size same.cells alike cell }

theorem addCell (same : store.Counterpart made storeToo) :
    Counterpart made { store with cells := store.cells.push .nil }
      { storeToo with cells := storeToo.cells.push .nil } :=
  { same with
    size := by
      rw [Array.size_push, Array.size_push, same.size]
    cells := related_push same.size same.cells .nil }

theorem tick (same : store.Counterpart made storeToo) : Counterpart made store.tick storeToo.tick :=
  { same with host := congrArg Host.tick same.host }

/-- A function is made where this pairing holds. -/
theorem capture {pairing : Pairing} {env envToo : Env} (same : store.Counterpart made storeToo)
    (around : Env.Counterpart pairing env envToo) :
    Counterpart (made ++ [pairing])
      { store with captured := store.captured.push env, identity := store.identity + 1 }
      { storeToo with captured := storeToo.captured.push envToo, identity := storeToo.identity + 1 } where
  host := same.host
  globals name := by
    have globals := same.globals name
    generalize store.globals.find? name = found at globals ⊢
    generalize storeToo.globals.find? name = foundToo at globals ⊢
    cases globals with
    | none => exact .none
    | some alike => exact .some (alike.mono (List.prefix_append made [pairing]))
  size := same.size
  cells cell := (same.cells cell).mono (List.prefix_append made [pairing])
  functions := by rw [Array.size_push, List.length_append, same.functions]; rfl
  functionsToo := by rw [Array.size_push, List.length_append, same.functionsToo]; rfl
  captured index pairing declared := by
    have before := same.captured index pairing
    simp only [Array.getD_eq_getD_getElem?, Array.getElem?_push, same.functions, same.functionsToo] at before ⊢
    split
    · subst index
      rw [List.getElem?_concat_length] at declared
      cases declared
      exact around
    · rename_i old
      have within := (List.getElem?_eq_some_iff.mp declared).1
      rw [List.length_append, List.length_singleton] at within
      rw [List.getElem?_append_left (by omega)] at declared
      exact before declared
  identity := congrArg (· + 1) same.identity
  sink := same.sink

end Store.Counterpart

end Cells

end ScopedScript
