import ScopedScript.Proofs.Grammar.ExpressionRules
import ScopedScript.Proofs.Relabeling.Trees
import ScopedScript.Scope.Resolution
namespace ScopedScript

/-!
# The scope analysis under a relabeling

The analysis never compares identities and never looks at lines, so it finds the same references of a
relabeled tree and rejects it for the same fault.  What it has found before only stands behind what it
finds, and at the top level it keeps no names; so of two programs, one behind the other, it finds the
references of both.
-/

variable (r : Relabeling)

namespace Reference

/-- A reference with another identity, on another line. -/
def relabel (reference : Reference) : Reference :=
  { reference with ref := r.ref reference.ref, target := reference.target.relabel r }

end Reference

namespace ScopeError

/-- The same fault on another line. -/
def relabel (error : ScopeError) : ScopeError := ⟨error.fault, error.culprit.relabel r⟩

end ScopeError

namespace Resolution

/-- An outcome of the analysis of a relabeled tree. -/
def relabeled {α β : Type} (f : α → β) : Except ScopeError α → Except ScopeError β
  | .ok result => .ok (f result)
  | .error error => .error (error.relabel r)

variable {r}

theorem relabeled_bind {α β γ δ : Type} {f : α → β} {g : γ → δ} {first : Except ScopeError α}
    {second : α → Except ScopeError γ} {andThen : β → Except ScopeError δ}
    (agree : ∀ result, andThen (f result) = relabeled r g (second result)) :
    (relabeled r f first >>= andThen) = relabeled r g (first >>= second) := by
  cases first with
  | error _ => rfl
  | ok result => exact agree result

variable (r) (earlier : List Reference)

/-- References that were found, relabeled and in front of earlier ones. -/
def relabelFound (found : List Reference) : List Reference :=
  found.map (Reference.relabel r) ++ earlier

/-- A walk with its references relabeled and in front of earlier ones. -/
def Walk.relabel (walk : Walk) : Walk := ⟨walk.scopes, relabelFound r earlier walk.found⟩

theorem declare_relabel (target : Identifier) (scopes : ScopeChain) :
    declare (target.relabel r) scopes = relabeled r id (declare target scopes) := by
  cases scopes with
  | nil => rfl
  | cons innermost outer =>
      rw [declare, declare, Identifier.name_relabel]
      split <;> rfl

theorem declareAll_relabel (targets : List Identifier) (scopes : ScopeChain) :
    declareAll (targets.map (Identifier.relabel r)) scopes =
      relabeled r id (declareAll targets scopes) := by
  induction targets generalizing scopes with
  | nil => rfl
  | cons target rest inductionHypothesis =>
      rw [List.map_cons, declareAll, declareAll, declare_relabel]
      exact relabeled_bind inductionHypothesis

theorem unready_relabel (target : Identifier) (scopes : ScopeChain) :
    unready (target.relabel r) scopes = unready target scopes := by
  cases scopes <;> rfl

mutual

theorem ofExpr_relabel (scopes : ScopeChain) (unready : Option String) :
    ∀ (e : Expr) (found : List Reference),
      ofExpr scopes unready (e.relabel r) (relabelFound r earlier found) =
        relabeled r (relabelFound r earlier) (ofExpr scopes unready e found)
  | .constant _, _ => rfl
  | .group inner, found => ofExpr_relabel scopes unready inner found
  | .unary _ _ operand, found => ofExpr_relabel scopes unready operand found
  | .binary _ _ left right, found => by
      rw [Expr.relabel, ofExpr, ofExpr, ofExpr_relabel scopes unready left]
      exact relabeled_bind (ofExpr_relabel scopes unready right)
  | .logical _ left right, found => by
      rw [Expr.relabel, ofExpr, ofExpr, ofExpr_relabel scopes unready left]
      exact relabeled_bind (ofExpr_relabel scopes unready right)
  | .variable ref target, found => by
      rw [Expr.relabel, ofExpr, ofExpr, Identifier.name_relabel]
      split <;> rfl
  | .assign ref target value, found => by
      rw [Expr.relabel, ofExpr, ofExpr, ofExpr_relabel scopes unready value]
      exact relabeled_bind fun _ => rfl
  | .call callee _ arguments, found => by
      rw [Expr.relabel, ofExpr, ofExpr, ofExpr_relabel scopes unready callee]
      exact relabeled_bind (ofExprs_relabel scopes unready arguments)

theorem ofExprs_relabel (scopes : ScopeChain) (unready : Option String) :
    ∀ (es : List Expr) (found : List Reference),
      ofExprs scopes unready (Expr.relabelAll r es) (relabelFound r earlier found) =
        relabeled r (relabelFound r earlier) (ofExprs scopes unready es found)
  | [], _ => rfl
  | e :: rest, found => by
      rw [Expr.relabelAll, ofExprs, ofExprs, ofExpr_relabel scopes unready e]
      exact relabeled_bind (ofExprs_relabel scopes unready rest)

end

theorem ofExpr?_relabel (scopes : ScopeChain) (e : Option Expr) (found : List Reference) :
    ofExpr? scopes (Expr.relabel? r e) (relabelFound r earlier found) =
      relabeled r (relabelFound r earlier) (ofExpr? scopes e found) := by
  cases e with
  | none => rfl
  | some e => exact ofExpr_relabel r earlier scopes none e found

mutual

theorem ofStmt_relabel (inFunction : Bool) :
    ∀ (s : Stmt) (walk : Walk), ofStmt inFunction (s.relabel r) (walk.relabel r earlier) =
      relabeled r (Walk.relabel r earlier) (ofStmt inFunction s walk)
  | .expression value, walk => by
      rw [Stmt.relabel, ofStmt, ofStmt]
      dsimp only [Walk.relabel]
      rw [ofExpr_relabel]
      exact relabeled_bind fun _ => rfl
  | .print _ values, walk => by
      rw [Stmt.relabel, ofStmt, ofStmt]
      dsimp only [Walk.relabel]
      rw [ofExprs_relabel]
      exact relabeled_bind fun _ => rfl
  | .declare target initializer, walk => by
      rw [Stmt.relabel, ofStmt, ofStmt]
      dsimp only [Walk.relabel]
      rw [declare_relabel]
      refine relabeled_bind fun scopes => ?_
      cases initializer with
      | none => rfl
      | some value =>
          dsimp only [Expr.relabel?, Option.map_some, id]
          rw [unready_relabel, ofExpr_relabel]
          exact relabeled_bind fun _ => rfl
  | .block body, walk => by
      rw [Stmt.relabel, ofStmt, ofStmt]
      have inside := ofStmts_relabel inFunction body ⟨[] :: walk.scopes, walk.found⟩
      dsimp only [Walk.relabel] at inside ⊢
      rw [inside]
      exact relabeled_bind fun _ => rfl
  | .branch condition whenTrue whenFalse, walk => by
      rw [Stmt.relabel, ofStmt, ofStmt]
      dsimp only [Walk.relabel]
      rw [ofExpr_relabel]
      refine relabeled_bind fun found => ?_
      have whenTrueSame := ofStmt_relabel inFunction whenTrue ⟨walk.scopes, found⟩
      dsimp only [Walk.relabel] at whenTrueSame ⊢
      rw [whenTrueSame]
      exact relabeled_bind (ofStmt?_relabel inFunction whenFalse)
  | .whileLoop condition body, walk => by
      rw [Stmt.relabel, ofStmt, ofStmt]
      dsimp only [Walk.relabel]
      rw [ofExpr_relabel]
      exact relabeled_bind fun found => ofStmt_relabel inFunction body ⟨walk.scopes, found⟩
  | .forLoop initializer condition increment body, walk => by
      rw [Stmt.relabel, ofStmt, ofStmt]
      have firstSame := ofStmt?_relabel inFunction initializer ⟨[] :: walk.scopes, walk.found⟩
      dsimp only [Walk.relabel] at firstSame ⊢
      rw [firstSame]
      refine relabeled_bind fun inner => ?_
      dsimp only [Walk.relabel]
      rw [ofExpr?_relabel]
      refine relabeled_bind fun found => ?_
      rw [ofExpr?_relabel]
      refine relabeled_bind fun found => ?_
      have bodySame := ofStmt_relabel inFunction body ⟨inner.scopes, found⟩
      dsimp only [Walk.relabel] at bodySame
      rw [bodySame]
      exact relabeled_bind fun _ => rfl
  | .function target parameters body, walk => by
      rw [Stmt.relabel, ofStmt, ofStmt]
      dsimp only [Walk.relabel]
      rw [declare_relabel]
      refine relabeled_bind fun scopes => ?_
      dsimp only [id]
      rw [declareAll_relabel]
      refine relabeled_bind fun inside => ?_
      have bodySame := ofStmts_relabel true body ⟨inside, walk.found⟩
      dsimp only [Walk.relabel] at bodySame
      dsimp only [id]
      rw [bodySame]
      exact relabeled_bind fun _ => rfl
  | .giveBack line value, walk => by
      rw [Stmt.relabel, ofStmt, ofStmt]
      split
      · dsimp only [Walk.relabel]
        rw [ofExpr?_relabel]
        exact relabeled_bind fun _ => rfl
      · rfl

theorem ofStmts_relabel (inFunction : Bool) :
    ∀ (ss : List Stmt) (walk : Walk),
      ofStmts inFunction (Stmt.relabelAll r ss) (walk.relabel r earlier) =
        relabeled r (Walk.relabel r earlier) (ofStmts inFunction ss walk)
  | [], _ => rfl
  | s :: rest, walk => by
      rw [Stmt.relabelAll, ofStmts, ofStmts, ofStmt_relabel inFunction s]
      exact relabeled_bind (ofStmts_relabel inFunction rest)

theorem ofStmt?_relabel (inFunction : Bool) :
    ∀ (s : Option Stmt) (walk : Walk),
      ofStmt? inFunction (Stmt.relabel? r s) (walk.relabel r earlier) =
        relabeled r (Walk.relabel r earlier) (ofStmt? inFunction s walk)
  | none, _ => rfl
  | some s, walk => by
      rw [Stmt.relabel?, ofStmt?, ofStmt?]
      exact ofStmt_relabel inFunction s walk

end

/-! ## At the top level -/

variable {r earlier}

mutual

/-- The top level keeps no names. -/
theorem scopes_of_topLevel {inFunction : Bool} :
    ∀ (s : Stmt) {found : List Reference} {walk : Walk},
      ofStmt inFunction s ⟨[], found⟩ = .ok walk → walk.scopes = []
  | .expression _, _, _, walked | .print _ _, _, _, walked | .block _, _, _, walked => by
      rcases bind_eq_ok.mp walked with ⟨_, _, made⟩
      cases made
      rfl
  | .declare target initializer, _, _, walked => by
      cases initializer with
      | none =>
          cases walked
          rfl
      | some value =>
          rcases bind_eq_ok.mp walked with ⟨_, declared, walked⟩
          rcases bind_eq_ok.mp walked with ⟨_, _, made⟩
          cases declared
          cases made
          rfl
  | .branch _ whenTrue whenFalse, _, _, walked => by
      rcases bind_eq_ok.mp walked with ⟨_, _, walked⟩
      rcases bind_eq_ok.mp walked with ⟨⟨scopes, _⟩, trueWalked, falseWalked⟩
      have empty : scopes = [] := scopes_of_topLevel whenTrue trueWalked
      subst empty
      exact scopes_of_topLevel? whenFalse falseWalked
  | .whileLoop _ body, _, _, walked => by
      rcases bind_eq_ok.mp walked with ⟨_, _, bodyWalked⟩
      exact scopes_of_topLevel body bodyWalked
  | .forLoop _ _ _ _, _, _, walked => by
      rcases bind_eq_ok.mp walked with ⟨_, _, walked⟩
      rcases bind_eq_ok.mp walked with ⟨_, _, walked⟩
      rcases bind_eq_ok.mp walked with ⟨_, _, walked⟩
      rcases bind_eq_ok.mp walked with ⟨_, _, made⟩
      cases made
      rfl
  | .function target _ _, _, _, walked => by
      rcases bind_eq_ok.mp walked with ⟨_, declared, walked⟩
      rcases bind_eq_ok.mp walked with ⟨_, _, walked⟩
      rcases bind_eq_ok.mp walked with ⟨_, _, made⟩
      cases declared
      cases made
      rfl
  | .giveBack _ _, _, _, walked => by
      rw [ofStmt] at walked
      split at walked
      · rcases bind_eq_ok.mp walked with ⟨_, _, made⟩
        cases made
        rfl
      · cases walked

theorem scopes_of_topLevel? {inFunction : Bool} :
    ∀ (s : Option Stmt) {found : List Reference} {walk : Walk},
      ofStmt? inFunction s ⟨[], found⟩ = .ok walk → walk.scopes = []
  | none, _, _, walked => by
      cases walked
      rfl
  | some s, _, _, walked => scopes_of_topLevel s walked

end

theorem scopes_of_program {inFunction : Bool} {program : List Stmt} {found : List Reference}
    {walk : Walk} (walked : ofStmts inFunction program ⟨[], found⟩ = .ok walk) :
    walk.scopes = [] := by
  induction program generalizing found with
  | nil =>
      cases walked
      rfl
  | cons first rest inductionHypothesis =>
      rcases bind_eq_ok.mp walked with ⟨⟨scopes, _⟩, firstWalked, restWalked⟩
      have empty : scopes = [] := scopes_of_topLevel first firstWalked
      subst empty
      exact inductionHypothesis restWalked

/-- Statements in two parts are walked over one part after the other. -/
theorem ofStmts_append (inFunction : Bool) (front back : List Stmt) (walk : Walk) :
    ofStmts inFunction (front ++ back) walk =
      (ofStmts inFunction front walk >>= ofStmts inFunction back) := by
  induction front generalizing walk with
  | nil => rfl
  | cons first rest inductionHypothesis =>
      rw [List.cons_append, ofStmts, ofStmts]
      cases ofStmt inFunction first walk with
      | error _ => rfl
      | ok walk => exact inductionHypothesis walk

end Resolution

open Resolution

/-- A relabeled program has the references of the program, or its fault. -/
theorem resolve_relabel (program : List Stmt) :
    resolve (Stmt.relabelAll r program) =
      relabeled r (List.map (Reference.relabel r)) (resolve program) := by
  rw [resolve, resolve]
  have walked : ofStmts false (Stmt.relabelAll r program) ⟨[], []⟩ =
      relabeled r (Walk.relabel r []) (ofStmts false program ⟨[], []⟩) :=
    ofStmts_relabel r [] false program ⟨[], []⟩
  rw [walked]
  refine relabeled_bind fun walk => ?_
  change Except.ok (walk.found.map (Reference.relabel r) ++ []).reverse = Except.ok _
  rw [List.append_nil, List.map_reverse]

/-- Two programs, one behind the other, have the references of both. -/
theorem resolve_append {program others : List Stmt} {references more : List Reference}
    (resolved : resolve program = .ok references) (othersResolved : resolve others = .ok more) :
    resolve (program ++ others) = .ok (references ++ more) := by
  rcases bind_eq_ok.mp resolved with ⟨⟨scopes, found⟩, walked, made⟩
  rcases bind_eq_ok.mp othersResolved with ⟨walk, othersWalked, othersMade⟩
  have empty : scopes = [] := scopes_of_program walked
  have behind : ofStmts false (Stmt.relabelAll .same others) ⟨[], found⟩ =
      relabeled .same (Walk.relabel .same found) (ofStmts false others ⟨[], []⟩) :=
    ofStmts_relabel .same found false others ⟨[], []⟩
  have unchanged : walk.found.map (Reference.relabel .same) = walk.found := List.map_id _
  rw [othersWalked, Stmt.relabelAll_same] at behind
  cases made
  cases othersMade
  subst empty
  rw [resolve, ofStmts_append, walked]
  dsimp only [bind, Except.bind]
  rw [behind]
  change Except.ok (walk.found.map (Reference.relabel .same) ++ found).reverse = Except.ok _
  rw [unchanged, List.reverse_append]

end ScopedScript
