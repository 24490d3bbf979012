import ScopedScript.Proofs.Desugaring.ForLoops
import ScopedScript.Proofs.Scoping.AlikeValues
namespace ScopedScript

/-!
# Variants of a program

Two pieces of program are variants when they differ in nothing but the form of their loops: where one has a
`for`, the other may have the `while` that means the same, and the other way round.  A program and what it
desugars to are variants of each other, and this relation goes both ways, which `Desugars` does not.

Functions are values, so a store that one program leaves holds variants of the functions that the other one
leaves.  Everything else in the stores is the same: the evaluator with cells has no scopes, and the map that a
function has captured does not tell how many blocks there are around it.
-/

namespace Stmt

mutual

/-- Two statements that differ in the form of their loops. -/
inductive Varies : Stmt → Stmt → Prop where
  | expression (value : Expr) : Varies (.expression value) (.expression value)
  | print (line : Nat) (values : List Expr) : Varies (.print line values) (.print line values)
  | declare (target : Identifier) (initializer : Option Expr) :
      Varies (.declare target initializer) (.declare target initializer)
  | block {body bodyToo : List Stmt} (inside : VaryAll body bodyToo) : Varies (.block body) (.block bodyToo)
  | branch (condition : Expr) {whenTrue trueToo : Stmt} {whenFalse falseToo : Option Stmt}
      (ifTrue : Varies whenTrue trueToo) (ifFalse : Varies? whenFalse falseToo) :
      Varies (.branch condition whenTrue whenFalse) (.branch condition trueToo falseToo)
  | whileLoop (condition : Expr) {body bodyToo : Stmt} (inside : Varies body bodyToo) :
      Varies (.whileLoop condition body) (.whileLoop condition bodyToo)
  | forLoop (first : Option Stmt) (condition increment : Option Expr) {body bodyToo : Stmt}
      (inside : Varies body bodyToo) :
      Varies (.forLoop first condition increment body) (.forLoop first condition increment bodyToo)
  | unfolded {first : Option Stmt} (condition increment : Option Expr) {body bodyToo : Stmt}
      (begins : InitializerWellFormed first) (formed : bodyToo.WellFormed) (nothing : bodyToo.declares = false)
      (inside : Varies body bodyToo) :
      Varies (.forLoop first condition increment body) (asWhile first condition increment bodyToo)
  | folded {first : Option Stmt} (condition increment : Option Expr) {body bodyToo : Stmt}
      (begins : InitializerWellFormed first) (formed : body.WellFormed) (nothing : body.declares = false)
      (inside : Varies body bodyToo) :
      Varies (asWhile first condition increment body) (.forLoop first condition increment bodyToo)
  | function (target : Identifier) (parameters : List Identifier) {body bodyToo : List Stmt}
      (inside : VaryAll body bodyToo) :
      Varies (.function target parameters body) (.function target parameters bodyToo)
  | giveBack (line : Nat) (value : Option Expr) : Varies (.giveBack line value) (.giveBack line value)

/-- As many statements that differ in the form of their loops. -/
inductive VaryAll : List Stmt → List Stmt → Prop where
  | nil : VaryAll [] []
  | cons {first firstToo : Stmt} {rest restToo : List Stmt} (head : Varies first firstToo)
      (tail : VaryAll rest restToo) : VaryAll (first :: rest) (firstToo :: restToo)

/-- Two such statements, or none. -/
inductive Varies? : Option Stmt → Option Stmt → Prop where
  | none : Varies? none none
  | some {s t : Stmt} (present : Varies s t) : Varies? (some s) (some t)

end

mutual

theorem Varies.refl : ∀ s : Stmt, s.Varies s
  | .expression value => .expression value
  | .print line values => .print line values
  | .declare target initializer => .declare target initializer
  | .block body => .block (VaryAll.refl body)
  | .branch condition whenTrue whenFalse => .branch condition (Varies.refl whenTrue) (Varies?.refl whenFalse)
  | .whileLoop condition body => .whileLoop condition (Varies.refl body)
  | .forLoop first condition increment body => .forLoop first condition increment (Varies.refl body)
  | .function target parameters body => .function target parameters (VaryAll.refl body)
  | .giveBack line value => .giveBack line value

theorem VaryAll.refl : ∀ ss : List Stmt, VaryAll ss ss
  | [] => .nil
  | first :: rest => .cons (Varies.refl first) (VaryAll.refl rest)

theorem Varies?.refl : ∀ s : Option Stmt, Varies? s s
  | none => .none
  | some s => .some (Varies.refl s)

end

mutual

/-- A statement and what it desugars to are variants of each other. -/
theorem varies_of_desugars : ∀ {s t : Stmt}, Desugars s t → s.WellFormed → s.Varies t ∧ t.Varies s
  | _, _, .expression value, _ => ⟨.expression value, .expression value⟩
  | _, _, .print line values, _ => ⟨.print line values, .print line values⟩
  | _, _, .declare target initializer, _ => ⟨.declare target initializer, .declare target initializer⟩
  | _, _, .block inside, formed => by
      rcases varyAll_of_desugar inside formed with ⟨there, back⟩
      exact ⟨.block there, .block back⟩
  | _, _, .branch condition ifTrue ifFalse, ⟨_, trueFormed, _, _, falseFormed⟩ => by
      rcases varies_of_desugars ifTrue trueFormed with ⟨trueThere, trueBack⟩
      rcases varies?_of_desugars ifFalse falseFormed with ⟨falseThere, falseBack⟩
      exact ⟨.branch condition trueThere falseThere, .branch condition trueBack falseBack⟩
  | _, _, .whileLoop condition inside, ⟨_, formed, _⟩ => by
      rcases varies_of_desugars inside formed with ⟨there, back⟩
      exact ⟨.whileLoop condition there, .whileLoop condition back⟩
  | _, _, .kept first condition increment inside, ⟨_, _, _, formed, _⟩ => by
      rcases varies_of_desugars inside formed with ⟨there, back⟩
      exact ⟨.forLoop first condition increment there, .forLoop first condition increment back⟩
  | _, _, .rewritten first condition increment inside, ⟨begins, _, _, formed, nothing⟩ => by
      rcases varies_of_desugars inside formed with ⟨there, back⟩
      have formedToo := wellFormed_of_desugars inside formed
      have nothingToo := (declares_of_desugars inside).trans nothing
      exact ⟨.unfolded condition increment begins formedToo nothingToo there,
        .folded condition increment begins formedToo nothingToo back⟩
  | _, _, .function target parameters inside, ⟨_, formed⟩ => by
      rcases varyAll_of_desugar inside formed with ⟨there, back⟩
      exact ⟨.function target parameters there, .function target parameters back⟩
  | _, _, .giveBack line value, _ => ⟨.giveBack line value, .giveBack line value⟩

theorem varyAll_of_desugar : ∀ {ss ts : List Stmt}, DesugarAll ss ts → AllWellFormed ss →
    VaryAll ss ts ∧ VaryAll ts ss
  | _, _, .nil, _ => ⟨.nil, .nil⟩
  | _, _, .cons head tail, ⟨first, rest⟩ => by
      rcases varies_of_desugars head first with ⟨headThere, headBack⟩
      rcases varyAll_of_desugar tail rest with ⟨tailThere, tailBack⟩
      exact ⟨.cons headThere tailThere, .cons headBack tailBack⟩

theorem varies?_of_desugars : ∀ {s t : Option Stmt}, Desugars? s t → BranchWellFormed s →
    Varies? s t ∧ Varies? t s
  | _, _, .none, _ => ⟨.none, .none⟩
  | _, _, .some present, ⟨formed, _⟩ => by
      rcases varies_of_desugars present formed with ⟨there, back⟩
      exact ⟨.some there, .some back⟩

end

end Stmt

/-! ## Values -/

/-- Two values are the same, or functions whose bodies are variants. -/
inductive Value.Varies : Value → Value → Prop where
  | plain {value : Value} (notClosure : value.isClosure = false) : Varies value value
  | closure (identity : Nat) (name : String) (parameters : List Identifier) {body bodyToo : List Stmt}
      (index : Nat) (inside : Stmt.VaryAll body bodyToo) :
      Varies (.function identity (.closure ⟨name, parameters, body, index⟩))
        (.function identity (.closure ⟨name, parameters, bodyToo, index⟩))

theorem Value.Varies.refl (value : Value) : value.Varies value := by
  cases value with
  | function identity callable =>
      cases callable with
      | closure closure => exact .closure identity _ _ _ (Stmt.VaryAll.refl closure.body)
      | builtin builtin => exact .plain rfl
  | _ => exact .plain rfl

theorem Value.Varies.similar {value other : Value} (varies : value.Varies other) : Similar value other := by
  cases varies with
  | plain notClosure => exact .plain notClosure
  | closure identity name parameters index inside => exact .closure _ _ _ _ _ _ _ _ rfl

/-- Two statements have ended in the same way, with values that are variants. -/
inductive Flow.Varies : Flow → Flow → Prop where
  | normal : Varies .normal .normal
  | returned {value other : Value} (varies : value.Varies other) : Varies (.returned value) (.returned other)

theorem Flow.Varies.result {flow other : Flow} (varies : flow.Varies other) :
    flow.result.Varies other.result := by
  cases varies with
  | normal => exact .refl _
  | returned varies => exact varies

/-! ## Stores -/

namespace Cells

/-- Two stores hold variants of the same values, and are equal otherwise. -/
structure Store.Varies (store other : Store) : Prop where
  host : other.host = store.host
  globals : ∀ name, Option.Rel Value.Varies (store.globals.find? name) (other.globals.find? name)
  size : other.cells.size = store.cells.size
  cells : ∀ cell, (store.cells.getD cell .nil).Varies (other.cells.getD cell .nil)
  captured : other.captured = store.captured
  identity : other.identity = store.identity
  sink : other.sink = store.sink

namespace Store.Varies

variable {store other : Store} {value valueToo : Value}

theorem refl (store : Store) : store.Varies store where
  host := rfl
  globals name := by
    cases store.globals.find? name with
    | none => exact .none
    | some value => exact .some (.refl value)
  size := rfl
  cells cell := .refl _
  captured := rfl
  identity := rfl
  sink := rfl

theorem setGlobal (varies : store.Varies other) (name : String) (same : value.Varies valueToo) :
    Varies { store with globals := store.globals.insert name value }
      { other with globals := other.globals.insert name valueToo } :=
  { varies with
    globals another := by
      rw [Bindings.find?_insert, Bindings.find?_insert]
      split
      · exact .some same
      · exact varies.globals another }

theorem setCell (varies : store.Varies other) (cell : CellId) (same : value.Varies valueToo) :
    Varies { store with cells := store.cells.setIfInBounds cell value }
      { other with cells := other.cells.setIfInBounds cell valueToo } :=
  { varies with
    size := by
      rw [Array.size_setIfInBounds, Array.size_setIfInBounds]
      exact varies.size
    cells := related_setIfInBounds varies.size varies.cells same cell }

theorem addCell (varies : store.Varies other) :
    Varies { store with cells := store.cells.push .nil } { other with cells := other.cells.push .nil } :=
  { varies with
    size := by
      rw [Array.size_push, Array.size_push, varies.size]
    cells := related_push varies.size varies.cells (.refl _) }

theorem tick (varies : store.Varies other) : Varies store.tick other.tick :=
  { varies with host := congrArg Host.tick varies.host }

theorem capture (varies : store.Varies other) (env : Env) :
    Varies { store with captured := store.captured.push env, identity := store.identity + 1 }
      { other with captured := other.captured.push env, identity := other.identity + 1 } :=
  { varies with
    captured := congrArg (Array.push · env) varies.captured
    identity := congrArg (· + 1) varies.identity }

end Store.Varies

end Cells

end ScopedScript
