import ScopedScript.Proofs.Grammar.Ladder
import ScopedScript.Scope.Resolution
namespace ScopedScript

/-!
# Programs whose references are settled

The scope analysis walks over a program and hands back a list of references.  `Bound` says the same of
the program itself: every reference is known under the distance of its name, no local variable is read
in its own initializer, no scope declares a name twice, and declarations stand only where a list of
statements goes on behind them.  Which distances are known is a parameter, so that what is bound in one
unit stays bound when later units make more references known.
-/

namespace Resolution

/-- The scopes once a name is declared in the innermost one. -/
def extended (name : String) : ScopeChain → ScopeChain
  | [] => []
  | innermost :: outer => (name :: innermost) :: outer

/-- The scopes once all parameters are declared. -/
def extendedAll : List Identifier → ScopeChain → ScopeChain
  | [], chain => chain
  | target :: rest, chain => extendedAll rest (extended target.name chain)

/-- The innermost scope does not declare the name yet. -/
def Fresh (name : String) : ScopeChain → Prop
  | [] => True
  | innermost :: _ => name ∉ innermost

/-- Each parameter is new when its turn comes. -/
def AllFresh : List Identifier → ScopeChain → Prop
  | [], _ => True
  | target :: rest, chain => Fresh target.name chain ∧ AllFresh rest (extended target.name chain)

variable {chain after : ScopeChain}

theorem declare_ok {target : Identifier} (declared : declare target chain = .ok after) :
    Fresh target.name chain ∧ after = extended target.name chain := by
  cases chain with
  | nil =>
      cases declared
      exact ⟨trivial, rfl⟩
  | cons innermost outer =>
      rw [declare] at declared
      split at declared
      · cases declared
      · rename_i new
        cases declared
        refine ⟨fun member => new ?_, rfl⟩
        exact List.contains_iff_mem.mpr member

theorem declareAll_ok {targets : List Identifier} (declared : declareAll targets chain = .ok after) :
    AllFresh targets chain ∧ after = extendedAll targets chain := by
  induction targets generalizing chain with
  | nil =>
      cases declared
      exact ⟨trivial, rfl⟩
  | cons target rest inductionHypothesis =>
      rw [declareAll] at declared
      cases first : declare target chain with
      | error _ =>
          rw [first] at declared
          cases declared
      | ok middle =>
          rw [first] at declared
          rcases declare_ok first with ⟨fresh, same⟩
          subst same
          rcases inductionHypothesis declared with ⟨allFresh, sameAfter⟩
          exact ⟨⟨fresh, allFresh⟩, sameAfter⟩

theorem distance?_cons (innermost : List String) (outer : ScopeChain) (name : String) :
    distance? (innermost :: outer) name =
      if name ∈ innermost then some 0 else (distance? outer name).map (· + 1) := by
  rw [distance?, List.findIdx?_cons]
  by_cases member : name ∈ innermost
  · rw [if_pos member, if_pos (List.contains_iff_mem.mpr member)]
  · rw [if_neg member, if_neg (fun found => member (List.contains_iff_mem.mp found))]
    rfl

/-- In a scope without names everything is one scope further away. -/
theorem distance?_enter (name : String) :
    distance? ([] :: chain) name = (distance? chain name).map (· + 1) := by
  rw [distance?_cons, if_neg List.not_mem_nil]

/-- Declaring a name changes the distance of that name only. -/
theorem distance?_extended (innermost : List String) (outer : ScopeChain) (name other : String) :
    distance? (extended name (innermost :: outer)) other =
      if name = other then some 0 else distance? (innermost :: outer) other := by
  rw [extended, distance?_cons, distance?_cons]
  by_cases same : name = other
  · subst same
    rw [if_pos List.mem_cons_self, if_pos rfl]
  · have otherwise : other ∈ name :: innermost ↔ other ∈ innermost := by
      rw [List.mem_cons]
      exact or_iff_right (Ne.symm same)
    rw [if_neg same]
    simp only [otherwise]

/-- A name that has just been declared is as near as can be. -/
theorem distance?_declared {name : String} (notTop : extended name chain ≠ []) :
    distance? (extended name chain) name = some 0 := by
  cases chain with
  | nil => exact absurd rfl notTop
  | cons innermost outer => rw [distance?_extended, if_pos rfl]

/-- The only variable that is not ready is the one that is being declared. -/
theorem eq_of_unready {target : Identifier} {name : String}
    (waiting : unready target chain = some name) : name = target.name := by
  cases chain with
  | nil => cases waiting
  | cons innermost outer =>
      cases waiting
      rfl

theorem extendedAll_ne_nil (targets : List Identifier) (notEmpty : chain ≠ []) :
    extendedAll targets chain ≠ [] := by
  induction targets generalizing chain with
  | nil => exact notEmpty
  | cons target rest inductionHypothesis =>
      cases chain with
      | nil => exact absurd rfl notEmpty
      | cons innermost outer => exact inductionHypothesis nofun

end Resolution

open Resolution (ScopeChain extended extendedAll Fresh AllFresh unready)

/-- Which references are known to be so far away from the declarations of their names. -/
abbrev Known := RefId → Option Nat → Prop

namespace Expr

mutual

/-- The references of an expression are known, and it does not read the variable that is not ready. -/
def Bound (known : Known) (chain : ScopeChain) (unready : Option String) : Expr → Prop
  | .constant _ => True
  | .group inner => inner.Bound known chain unready
  | .unary _ _ operand => operand.Bound known chain unready
  | .binary _ _ left right => left.Bound known chain unready ∧ right.Bound known chain unready
  | .logical _ left right => left.Bound known chain unready ∧ right.Bound known chain unready
  | .variable ref target =>
    unready ≠ some target.name ∧ known ref (Resolution.distance? chain target.name)
  | .assign ref target value =>
    value.Bound known chain unready ∧ known ref (Resolution.distance? chain target.name)
  | .call callee _ arguments =>
    callee.Bound known chain unready ∧ AllBound known chain unready arguments

/-- The same for several expressions. -/
def AllBound (known : Known) (chain : ScopeChain) (unready : Option String) : List Expr → Prop
  | [] => True
  | first :: rest => first.Bound known chain unready ∧ AllBound known chain unready rest

end

/-- The same for an expression that may be absent. -/
def Bound? (known : Known) (chain : ScopeChain) (unready : Option String) : Option Expr → Prop
  | none => True
  | some e => e.Bound known chain unready

end Expr

namespace Stmt

/-- The scopes behind a statement. -/
def extend (chain : ScopeChain) : Stmt → ScopeChain
  | .declare target _ => extended target.name chain
  | .function target _ _ => extended target.name chain
  | _ => chain

/-- The scopes behind a statement that may be absent. -/
def extend? (chain : ScopeChain) : Option Stmt → ScopeChain
  | none => chain
  | some s => s.extend chain

/-- What declares nothing leaves the scopes as they are. -/
theorem extend_eq {s : Stmt} (declaresNothing : s.declares = false) (chain : ScopeChain) :
    s.extend chain = chain := by
  cases s with
  | declare target value => cases declaresNothing
  | function target parameters body => cases declaresNothing
  | _ => rfl

mutual

/-- A statement whose references are known and whose declarations are new where they stand. -/
def Bound (known : Known) (chain : ScopeChain) : Stmt → Prop
  | .expression value => value.Bound known chain none
  | .print _ values => Expr.AllBound known chain none values
  | .declare target initializer =>
    Fresh target.name chain ∧
      Expr.Bound? known (extended target.name chain) (unready target chain) initializer
  | .block body => AllBound known ([] :: chain) body
  | .branch condition whenTrue whenFalse =>
    condition.Bound known chain none ∧ (whenTrue.Bound known chain ∧ whenTrue.declares = false) ∧
      BranchBound known chain whenFalse
  | .whileLoop condition body =>
    condition.Bound known chain none ∧ body.Bound known chain ∧ body.declares = false
  | .forLoop first condition increment body =>
    Bound? known ([] :: chain) first ∧
      Expr.Bound? known (extend? ([] :: chain) first) none condition ∧
      Expr.Bound? known (extend? ([] :: chain) first) none increment ∧
      body.Bound known (extend? ([] :: chain) first) ∧ body.declares = false
  | .function target parameters body =>
    Fresh target.name chain ∧ AllFresh parameters ([] :: extended target.name chain) ∧
      AllBound known (extendedAll parameters ([] :: extended target.name chain)) body
  | .giveBack _ value => Expr.Bound? known chain none value

/-- The same for statements one after the other. -/
def AllBound (known : Known) (chain : ScopeChain) : List Stmt → Prop
  | [] => True
  | first :: rest => first.Bound known chain ∧ AllBound known (first.extend chain) rest

/-- The same for a statement that may be absent. -/
def Bound? (known : Known) (chain : ScopeChain) : Option Stmt → Prop
  | none => True
  | some s => s.Bound known chain

/-- The same for a branch that may be absent, which declares nothing. -/
def BranchBound (known : Known) (chain : ScopeChain) : Option Stmt → Prop
  | none => True
  | some other => other.Bound known chain ∧ other.declares = false

end

end Stmt

/-! ## Knowing more -/

section Monotone

variable {known more : Known}

mutual

theorem Expr.Bound.mono (grows : ∀ ref distance, known ref distance → more ref distance)
    {chain : ScopeChain} {unready : Option String} :
    ∀ {e : Expr}, e.Bound known chain unready → e.Bound more chain unready
  | .constant _, _ => trivial
  | .group inner, bound => Expr.Bound.mono grows (e := inner) bound
  | .unary _ _ operand, bound => Expr.Bound.mono grows (e := operand) bound
  | .binary _ _ _ _, ⟨left, right⟩ => ⟨left.mono grows, right.mono grows⟩
  | .logical _ _ _, ⟨left, right⟩ => ⟨left.mono grows, right.mono grows⟩
  | .variable _ _, ⟨ready, isKnown⟩ => ⟨ready, grows _ _ isKnown⟩
  | .assign _ _ _, ⟨value, isKnown⟩ => ⟨value.mono grows, grows _ _ isKnown⟩
  | .call _ _ _, ⟨callee, arguments⟩ => ⟨callee.mono grows, Expr.AllBound.mono grows arguments⟩

theorem Expr.AllBound.mono (grows : ∀ ref distance, known ref distance → more ref distance)
    {chain : ScopeChain} {unready : Option String} :
    ∀ {es : List Expr}, Expr.AllBound known chain unready es → Expr.AllBound more chain unready es
  | [], _ => trivial
  | _ :: _, ⟨first, rest⟩ => ⟨first.mono grows, Expr.AllBound.mono grows rest⟩

end

theorem Expr.Bound?.mono (grows : ∀ ref distance, known ref distance → more ref distance)
    {chain : ScopeChain} {unready : Option String} :
    ∀ {e : Option Expr}, Expr.Bound? known chain unready e → Expr.Bound? more chain unready e
  | none, _ => trivial
  | some e, bound => Expr.Bound.mono grows (e := e) bound

mutual

theorem Stmt.Bound.mono (grows : ∀ ref distance, known ref distance → more ref distance)
    {chain : ScopeChain} : ∀ {s : Stmt}, s.Bound known chain → s.Bound more chain
  | .expression value, bound => Expr.Bound.mono grows (e := value) bound
  | .print _ _, bound => Expr.AllBound.mono grows bound
  | .declare _ _, ⟨fresh, value⟩ => ⟨fresh, value.mono grows⟩
  | .block _, bound => Stmt.AllBound.mono grows bound
  | .branch _ _ _, ⟨condition, ⟨whenTrue, nothing⟩, whenFalse⟩ =>
      ⟨condition.mono grows, ⟨whenTrue.mono grows, nothing⟩, whenFalse.mono grows⟩
  | .whileLoop _ _, ⟨condition, body, nothing⟩ => ⟨condition.mono grows, body.mono grows, nothing⟩
  | .forLoop _ _ _ _, ⟨first, condition, increment, body, nothing⟩ =>
      ⟨first.mono grows, condition.mono grows, increment.mono grows, body.mono grows, nothing⟩
  | .function _ _ _, ⟨fresh, allFresh, body⟩ => ⟨fresh, allFresh, Stmt.AllBound.mono grows body⟩
  | .giveBack _ _, bound => Expr.Bound?.mono grows bound

theorem Stmt.AllBound.mono (grows : ∀ ref distance, known ref distance → more ref distance)
    {chain : ScopeChain} : ∀ {ss : List Stmt}, Stmt.AllBound known chain ss → Stmt.AllBound more chain ss
  | [], _ => trivial
  | _ :: _, ⟨first, rest⟩ => ⟨first.mono grows, Stmt.AllBound.mono grows rest⟩

theorem Stmt.Bound?.mono (grows : ∀ ref distance, known ref distance → more ref distance)
    {chain : ScopeChain} : ∀ {s : Option Stmt}, Stmt.Bound? known chain s → Stmt.Bound? more chain s
  | none, _ => trivial
  | some s, bound => Stmt.Bound.mono grows (s := s) bound

theorem Stmt.BranchBound.mono (grows : ∀ ref distance, known ref distance → more ref distance)
    {chain : ScopeChain} :
    ∀ {s : Option Stmt}, Stmt.BranchBound known chain s → Stmt.BranchBound more chain s
  | none, _ => trivial
  | some _, ⟨bound, nothing⟩ => ⟨bound.mono grows, nothing⟩

end

end Monotone

end ScopedScript
