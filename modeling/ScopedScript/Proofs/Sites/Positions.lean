import Mathlib.Data.List.Infix
import ScopedScript.Scope.Resolution
namespace ScopedScript

/-!
# The sites of a program

A site is a place of a program where a name is declared, read or written, or where a `return` stands.  The
sites of a program are listed in the order of its text, except that an assignment comes behind its value and
the increment of a `for` in front of its body.  Each site knows the local scopes around it, and a scope is told
from all others by where in the program the statement stands that opens it: a block, a `for` or a function.

Nothing here is analysed.  Which names are declared where, what a reference means and what is wrong with a
program can all be said of the list of its sites.
-/

/-- The way from a whole program to a statement in it, innermost step first. -/
abbrev Position := List Nat

/-- What declares a name. -/
inductive DeclarationKind where
  | «variable» | parameter | function
  deriving DecidableEq, Repr

/-- What happens at a site. -/
inductive Deed where
  | declares (kind : DeclarationKind) (target : Identifier)
  /-- The owner is the variable whose initializer the reference stands in. -/
  | refers (ref : RefId) (access : Access) (target : Identifier) (owner : Option String)
  | returns (line : Nat) (inFunction : Bool)
  deriving DecidableEq, Repr

/-- A site of a program and the local scopes around it, innermost scope first. -/
structure Site where
  scopes : List Position
  deed : Deed
  deriving DecidableEq, Repr

namespace Site

mutual

/-- The sites of an expression. -/
def ofExpr (scopes : List Position) (owner : Option String) : Expr → List Site
  | .constant _ => []
  | .group inner => ofExpr scopes owner inner
  | .unary _ _ operand => ofExpr scopes owner operand
  | .binary _ _ left right => ofExpr scopes owner left ++ ofExpr scopes owner right
  | .logical _ left right => ofExpr scopes owner left ++ ofExpr scopes owner right
  | .variable ref target => [⟨scopes, .refers ref .read target owner⟩]
  | .assign ref target value => ofExpr scopes owner value ++ [⟨scopes, .refers ref .write target owner⟩]
  | .call callee _ arguments => ofExpr scopes owner callee ++ ofExprs scopes owner arguments

/-- The sites of several expressions in order. -/
def ofExprs (scopes : List Position) (owner : Option String) : List Expr → List Site
  | [] => []
  | first :: rest => ofExpr scopes owner first ++ ofExprs scopes owner rest

end

/-- The sites of an expression that may be absent. -/
def ofExpr? (scopes : List Position) (owner : Option String) : Option Expr → List Site
  | none => []
  | some e => ofExpr scopes owner e

/-- The sites of parameters. -/
def ofParameters (scopes : List Position) (parameters : List Identifier) : List Site :=
  parameters.map fun parameter => ⟨scopes, .declares .parameter parameter⟩

mutual

/-- The sites of a statement that stands here.  The scope that it opens, if any, is named after its place. -/
def ofStmt (scopes : List Position) (here : Position) (inFunction : Bool) : Stmt → List Site
  | .expression value => ofExpr scopes none value
  | .print _ values => ofExprs scopes none values
  | .declare target initializer =>
    ⟨scopes, .declares .variable target⟩ :: ofExpr? scopes (some target.name) initializer
  | .block body => ofStmts (here :: scopes) here inFunction 0 body
  | .branch condition whenTrue whenFalse =>
    ofExpr scopes none condition ++ (ofStmt scopes (0 :: here) inFunction whenTrue ++
      ofStmt? scopes (1 :: here) inFunction whenFalse)
  | .whileLoop condition body =>
    ofExpr scopes none condition ++ ofStmt scopes (0 :: here) inFunction body
  | .forLoop first condition increment body =>
    ofStmt? (here :: scopes) (0 :: here) inFunction first ++
      (ofExpr? (here :: scopes) none condition ++ (ofExpr? (here :: scopes) none increment ++
        ofStmt (here :: scopes) (1 :: here) inFunction body))
  | .function target parameters body =>
    ⟨scopes, .declares .function target⟩ ::
      (ofParameters (here :: scopes) parameters ++ ofStmts (here :: scopes) here true 0 body)
  | .giveBack line value => ⟨scopes, .returns line inFunction⟩ :: ofExpr? scopes none value

/-- The sites of statements in order, which stand side by side from the given index on. -/
def ofStmts (scopes : List Position) (here : Position) (inFunction : Bool) (index : Nat) :
    List Stmt → List Site
  | [] => []
  | first :: rest =>
    ofStmt scopes (index :: here) inFunction first ++ ofStmts scopes here inFunction (index + 1) rest

/-- The sites of a statement that may be absent. -/
def ofStmt? (scopes : List Position) (here : Position) (inFunction : Bool) : Option Stmt → List Site
  | none => []
  | some s => ofStmt scopes here inFunction s

end

/-- The name that a site declares, with the scope that it is declared in.  The top level is no scope. -/
def declaration? (site : Site) : Option (Position × String) :=
  match site with
  | ⟨scope :: _, .declares _ target⟩ => some (scope, target.name)
  | _ => none

/-- The names that sites declare in a scope, latest first. -/
def namesIn (scope : Position) (sites : List Site) : List String :=
  (sites.filterMap fun site =>
    site.declaration?.bind fun declared => if declared.1 = scope then some declared.2 else none).reverse

end Site

/-- The sites of a program in the order in which the scope analysis comes to them. -/
def sites (program : List Stmt) : List Site := Site.ofStmts [] [] false 0 program

/-! ## Where the sites of a statement are -/

namespace Position

/-- None of the scopes is opened at this place or inside it. -/
def Outside (here : Position) (scopes : List Position) : Prop := ∀ scope ∈ scopes, ¬ here <:+ scope

/-- The innermost scope, if there is one, is opened at this place or inside it. -/
def Around (here : Position) (scopes : List Position) : Prop := ∀ scope ∈ scopes.head?, here <:+ scope

/-- Nothing stands at both places. -/
def Apart (there here : Position) : Prop := ∀ place : Position, here <:+ place → ¬ there <:+ place

variable {here there : Position} {scopes : List Position} {k : Nat}

theorem suffix_child (k : Nat) (here : Position) : here <:+ k :: here := List.suffix_cons k here

theorem not_child_suffix (k : Nat) (here : Position) : ¬ k :: here <:+ here :=
  fun within => Nat.not_succ_le_self _ within.length_le

/-- Statements that stand side by side are apart. -/
theorem apart_of_ne {j : Nat} (different : j ≠ k) (here : Position) : Apart (j :: here) (k :: here) := by
  intro place within withinToo
  have same : j :: here = k :: here := by
    rcases List.suffix_or_suffix_of_suffix withinToo within with order | order
    · exact order.eq_of_length rfl
    · exact (order.eq_of_length rfl).symm
  exact different (List.cons.inj same).1

theorem Outside.child (outside : Outside here scopes) (k : Nat) : Outside (k :: here) scopes :=
  fun scope member within => outside scope member ((suffix_child k here).trans within)

/-- A scope is outside of the statements in it. -/
theorem Outside.enter (outside : Outside here scopes) (k : Nat) : Outside (k :: here) (here :: scopes) := by
  intro scope member
  rcases List.mem_cons.mp member with same | outer
  · rw [same]
    exact not_child_suffix k here
  · exact outside.child k scope outer

theorem Outside.open (outside : Outside there scopes) (apart : Apart there here) :
    Outside there (here :: scopes) := by
  intro scope member
  rcases List.mem_cons.mp member with same | outer
  · rw [same]
    exact apart here List.suffix_rfl
  · exact outside scope outer

theorem around_cons (here : Position) (scopes : List Position) : Around here (here :: scopes) := by
  intro scope member
  cases member
  exact List.suffix_rfl

theorem Around.weaken (around : Around here scopes) (within : there <:+ here) : Around there scopes :=
  fun scope member => within.trans (around scope member)

end Position

open Position (Outside Around Apart)

namespace Site

variable {there here root : Position} {scopes : List Position} {site : Site}

mutual

/-- All sites of an expression are in the scopes around it, and none declares anything. -/
theorem of_mem_ofExpr {owner : Option String} : ∀ {e : Expr}, site ∈ ofExpr scopes owner e →
    site.scopes = scopes ∧ site.declaration? = none
  | .constant _, member => nomatch member
  | .group _, member | .unary _ _ _, member => of_mem_ofExpr (by rwa [ofExpr] at member)
  | .binary _ _ _ _, member | .logical _ _ _, member => by
      rw [ofExpr] at member
      rcases List.mem_append.mp member with left | right
      · exact of_mem_ofExpr left
      · exact of_mem_ofExpr right
  | .variable _ _, member => by
      rw [ofExpr, List.mem_singleton] at member
      subst member
      exact ⟨rfl, by cases scopes <;> rfl⟩
  | .assign _ _ _, member => by
      rw [ofExpr] at member
      rcases List.mem_append.mp member with value | own
      · exact of_mem_ofExpr value
      · rw [List.mem_singleton] at own
        subst own
        exact ⟨rfl, by cases scopes <;> rfl⟩
  | .call _ _ _, member => by
      rw [ofExpr] at member
      rcases List.mem_append.mp member with callee | arguments
      · exact of_mem_ofExpr callee
      · exact of_mem_ofExprs arguments

theorem of_mem_ofExprs {owner : Option String} : ∀ {es : List Expr}, site ∈ ofExprs scopes owner es →
    site.scopes = scopes ∧ site.declaration? = none
  | [], member => nomatch member
  | _ :: _, member => by
      rw [ofExprs] at member
      rcases List.mem_append.mp member with first | rest
      · exact of_mem_ofExpr first
      · exact of_mem_ofExprs rest

end

theorem of_mem_ofExpr? {owner : Option String} {e : Option Expr} (member : site ∈ ofExpr? scopes owner e) :
    site.scopes = scopes ∧ site.declaration? = none := by
  cases e with
  | none => cases member
  | some e => exact of_mem_ofExpr member

/-- All parameters are declared in the scope of the function. -/
theorem scopes_of_mem_ofParameters {parameters : List Identifier}
    (member : site ∈ ofParameters scopes parameters) : site.scopes = scopes := by
  rcases List.mem_map.mp member with ⟨parameter, _, rfl⟩
  rfl

section

variable {P : List Position → Prop}

mutual

/-- What holds of the scopes around a statement holds of those around its sites, when opening further scopes
inside it does not matter. -/
theorem scopes_of_mem_ofStmt (enters : ∀ place scopes, root <:+ place → P scopes → P (place :: scopes))
    {inFunction : Bool} : ∀ {s : Stmt} {scopes : List Position} {here : Position},
    root <:+ here → P scopes → site ∈ ofStmt scopes here inFunction s → P site.scopes
  | .expression _, _, _, _, holds, member => by
      rw [(of_mem_ofExpr member).1]
      exact holds
  | .print _ _, _, _, _, holds, member => by
      rw [(of_mem_ofExprs member).1]
      exact holds
  | .declare _ _, _, _, _, holds, member => by
      rcases List.mem_cons.mp member with same | value
      · rw [same]
        exact holds
      · rw [(of_mem_ofExpr? value).1]
        exact holds
  | .block _, scopes, here, within, holds, member =>
      scopes_of_mem_ofStmts enters within (enters here scopes within holds) member
  | .branch _ _ _, _, here, within, holds, member => by
      rw [ofStmt, List.mem_append, List.mem_append] at member
      rcases member with condition | whenTrue | whenFalse
      · rw [(of_mem_ofExpr condition).1]
        exact holds
      · exact scopes_of_mem_ofStmt enters (within.trans (Position.suffix_child 0 here)) holds whenTrue
      · exact scopes_of_mem_ofStmt? enters (within.trans (Position.suffix_child 1 here)) holds whenFalse
  | .whileLoop _ _, _, here, within, holds, member => by
      rw [ofStmt, List.mem_append] at member
      rcases member with condition | body
      · rw [(of_mem_ofExpr condition).1]
        exact holds
      · exact scopes_of_mem_ofStmt enters (within.trans (Position.suffix_child 0 here)) holds body
  | .forLoop _ _ _ _, scopes, here, within, holds, member => by
      have inside := enters here scopes within holds
      rw [ofStmt, List.mem_append, List.mem_append, List.mem_append] at member
      rcases member with first | condition | increment | body
      · exact scopes_of_mem_ofStmt? enters (within.trans (Position.suffix_child 0 here)) inside first
      · rw [(of_mem_ofExpr? condition).1]
        exact inside
      · rw [(of_mem_ofExpr? increment).1]
        exact inside
      · exact scopes_of_mem_ofStmt enters (within.trans (Position.suffix_child 1 here)) inside body
  | .function _ _ _, scopes, here, within, holds, member => by
      have inside := enters here scopes within holds
      rw [ofStmt, List.mem_cons, List.mem_append] at member
      rcases member with same | parameter | body
      · rw [same]
        exact holds
      · rw [scopes_of_mem_ofParameters parameter]
        exact inside
      · exact scopes_of_mem_ofStmts enters within inside body
  | .giveBack _ _, _, _, _, holds, member => by
      rcases List.mem_cons.mp member with same | value
      · rw [same]
        exact holds
      · rw [(of_mem_ofExpr? value).1]
        exact holds

theorem scopes_of_mem_ofStmts (enters : ∀ place scopes, root <:+ place → P scopes → P (place :: scopes))
    {inFunction : Bool} {index : Nat} :
    ∀ {ss : List Stmt} {scopes : List Position} {here : Position}, root <:+ here → P scopes →
      site ∈ ofStmts scopes here inFunction index ss → P site.scopes
  | [], _, _, _, _, member => nomatch member
  | _ :: _, _, here, within, holds, member => by
      rw [ofStmts, List.mem_append] at member
      rcases member with first | rest
      · exact scopes_of_mem_ofStmt enters (within.trans (Position.suffix_child index here)) holds first
      · exact scopes_of_mem_ofStmts enters within holds rest

theorem scopes_of_mem_ofStmt? (enters : ∀ place scopes, root <:+ place → P scopes → P (place :: scopes))
    {inFunction : Bool} : ∀ {s : Option Stmt} {scopes : List Position} {here : Position},
    root <:+ here → P scopes → site ∈ ofStmt? scopes here inFunction s → P site.scopes
  | none, _, _, _, _, member => nomatch member
  | some _, _, _, within, holds, member => by
      rw [ofStmt?] at member
      exact scopes_of_mem_ofStmt enters within holds member

end

end

end Site

end ScopedScript
