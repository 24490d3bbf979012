import ScopedScript.Proofs.Desugaring.ForLoops
import ScopedScript.Proofs.Scoping.Resolved
namespace ScopedScript

/-!
# Which programs the scope analysis accepts

Besides a `return` outside of functions, only two things are wrong: a name that is declared twice in a scope,
and a local variable that is read in its own initializer.  What distances the references have does not matter.
So a program is accepted exactly when it is `Bound` with everything known, and has no such `return`.

Both faults are about the innermost scope, and what declares nothing can stand in any.  So the scope that a
`while` has and the `for` has not makes no difference.
-/

open Resolution (ScopeChain extended extendedAll Fresh AllFresh unready)

namespace Resolution

variable {known : Known} {chain : ScopeChain}

/-! ## What is bound is accepted -/

theorem declare_of_fresh {target : Identifier} (fresh : Fresh target.name chain) :
    declare target chain = .ok (extended target.name chain) := by
  cases chain with
  | nil => rfl
  | cons innermost outer =>
      rw [declare, if_neg fun again => fresh (List.contains_iff_mem.mp again)]
      rfl

theorem declareAll_of_allFresh {targets : List Identifier} (allFresh : AllFresh targets chain) :
    declareAll targets chain = .ok (extendedAll targets chain) := by
  induction targets generalizing chain with
  | nil => rfl
  | cons target rest inductionHypothesis =>
      exact bind_eq_ok.mpr ⟨_, declare_of_fresh allFresh.1, inductionHypothesis allFresh.2⟩

mutual

theorem ofExpr_of_bound {unready : Option String} : ∀ (e : Expr), e.Bound known chain unready →
    ∀ found, ∃ after, ofExpr chain unready e found = .ok after
  | .constant _, _, found => ⟨found, rfl⟩
  | .group inner, bound, found => ofExpr_of_bound inner bound found
  | .unary _ _ operand, bound, found => ofExpr_of_bound operand bound found
  | .binary _ _ left right, ⟨leftBound, rightBound⟩, found | .logical _ left right, ⟨leftBound, rightBound⟩,
      found => by
      rcases ofExpr_of_bound left leftBound found with ⟨middle, leftWalked⟩
      rcases ofExpr_of_bound right rightBound middle with ⟨after, rightWalked⟩
      exact ⟨after, bind_eq_ok.mpr ⟨middle, leftWalked, rightWalked⟩⟩
  | .variable _ _, ⟨ready, _⟩, _ => ⟨_, if_neg ready⟩
  | .assign _ _ value, ⟨bound, _⟩, found => by
      rcases ofExpr_of_bound value bound found with ⟨middle, valueWalked⟩
      exact ⟨_, bind_eq_ok.mpr ⟨middle, valueWalked, rfl⟩⟩
  | .call callee _ arguments, ⟨calleeBound, argumentsBound⟩, found => by
      rcases ofExpr_of_bound callee calleeBound found with ⟨middle, calleeWalked⟩
      rcases ofExprs_of_bound arguments argumentsBound middle with ⟨after, argumentsWalked⟩
      exact ⟨after, bind_eq_ok.mpr ⟨middle, calleeWalked, argumentsWalked⟩⟩

theorem ofExprs_of_bound {unready : Option String} : ∀ (es : List Expr), Expr.AllBound known chain unready es →
    ∀ found, ∃ after, ofExprs chain unready es found = .ok after
  | [], _, found => ⟨found, rfl⟩
  | first :: rest, ⟨firstBound, restBound⟩, found => by
      rcases ofExpr_of_bound first firstBound found with ⟨middle, firstWalked⟩
      rcases ofExprs_of_bound rest restBound middle with ⟨after, restWalked⟩
      exact ⟨after, bind_eq_ok.mpr ⟨middle, firstWalked, restWalked⟩⟩

end

theorem ofExpr?_of_bound {e : Option Expr} (bound : Expr.Bound? known chain none e) (found : List Reference) :
    ∃ after, ofExpr? chain e found = .ok after := by
  cases e with
  | none => exact ⟨found, rfl⟩
  | some e => exact ofExpr_of_bound e bound found

/-- A `return` may stand in a function only. -/
def MayReturn (inFunction returns : Bool) : Prop := returns = true → inFunction = true

theorem MayReturn.or {inFunction left right : Bool} (may : MayReturn inFunction (left || right)) :
    MayReturn inFunction left ∧ MayReturn inFunction right := by
  refine ⟨fun returns => may ?_, fun returns => may ?_⟩
  · rw [returns, Bool.true_or]
  · rw [returns, Bool.or_true]

mutual

theorem ofStmt_of_bound (inFunction : Bool) : ∀ (s : Stmt) (walk : Walk), s.Bound known walk.scopes →
    MayReturn inFunction s.returns → ∃ found, ofStmt inFunction s walk = .ok ⟨s.extend walk.scopes, found⟩
  | .expression value, walk, bound, _ => by
      rcases ofExpr_of_bound value bound walk.found with ⟨found, valueWalked⟩
      exact ⟨found, bind_eq_ok.mpr ⟨found, valueWalked, rfl⟩⟩
  | .print _ values, walk, bound, _ => by
      rcases ofExprs_of_bound values bound walk.found with ⟨found, valuesWalked⟩
      exact ⟨found, bind_eq_ok.mpr ⟨found, valuesWalked, rfl⟩⟩
  | .declare _ none, walk, ⟨fresh, _⟩, _ => ⟨walk.found, bind_eq_ok.mpr ⟨_, declare_of_fresh fresh, rfl⟩⟩
  | .declare _ (some value), walk, ⟨fresh, bound⟩, _ => by
      rcases ofExpr_of_bound value bound walk.found with ⟨found, valueWalked⟩
      rw [← unready_extended] at valueWalked
      refine ⟨found, bind_eq_ok.mpr ⟨_, declare_of_fresh fresh, ?_⟩⟩
      exact bind_eq_ok.mpr ⟨found, valueWalked, rfl⟩
  | .block body, walk, bound, mayReturn => by
      rcases ofStmts_of_bound inFunction body ⟨[] :: walk.scopes, walk.found⟩ bound mayReturn with
        ⟨inner, bodyWalked⟩
      exact ⟨inner.found, bind_eq_ok.mpr ⟨inner, bodyWalked, rfl⟩⟩
  | .branch condition whenTrue whenFalse, walk, ⟨bound, ⟨trueBound, nothing⟩, falseBound⟩, mayReturn => by
      rcases ofExpr_of_bound condition bound walk.found with ⟨found, conditionWalked⟩
      rcases ofStmt_of_bound inFunction whenTrue ⟨walk.scopes, found⟩ trueBound mayReturn.or.1 with
        ⟨middle, trueWalked⟩
      rw [Stmt.extend_eq nothing] at trueWalked
      rcases ofBranch_of_bound inFunction whenFalse ⟨walk.scopes, middle⟩ falseBound mayReturn.or.2 with
        ⟨after, falseWalked⟩
      refine ⟨after, bind_eq_ok.mpr ⟨found, conditionWalked, ?_⟩⟩
      exact bind_eq_ok.mpr ⟨_, trueWalked, falseWalked⟩
  | .whileLoop condition body, walk, ⟨bound, bodyBound, nothing⟩, mayReturn => by
      rcases ofExpr_of_bound condition bound walk.found with ⟨found, conditionWalked⟩
      rcases ofStmt_of_bound inFunction body ⟨walk.scopes, found⟩ bodyBound mayReturn with ⟨after, bodyWalked⟩
      rw [Stmt.extend_eq nothing] at bodyWalked
      exact ⟨after, bind_eq_ok.mpr ⟨found, conditionWalked, bodyWalked⟩⟩
  | .forLoop first condition increment body, walk, ⟨firstBound, conditionBound, incrementBound, bodyBound, _⟩,
      mayReturn => by
      rcases ofStmt?_of_bound inFunction first ⟨[] :: walk.scopes, walk.found⟩ firstBound mayReturn.or.1 with
        ⟨found, firstWalked⟩
      rcases ofExpr?_of_bound conditionBound found with ⟨foundCondition, conditionWalked⟩
      rcases ofExpr?_of_bound incrementBound foundCondition with ⟨foundIncrement, incrementWalked⟩
      rcases ofStmt_of_bound inFunction body ⟨_, foundIncrement⟩ bodyBound mayReturn.or.2 with
        ⟨after, bodyWalked⟩
      refine ⟨after, bind_eq_ok.mpr ⟨_, firstWalked, bind_eq_ok.mpr ⟨_, conditionWalked, ?_⟩⟩⟩
      exact bind_eq_ok.mpr ⟨_, incrementWalked, bind_eq_ok.mpr ⟨_, bodyWalked, rfl⟩⟩
  | .function _ _ body, walk, ⟨fresh, allFresh, bodyBound⟩, _ => by
      rcases ofStmts_of_bound true body ⟨_, walk.found⟩ bodyBound fun _ => rfl with ⟨inner, bodyWalked⟩
      refine ⟨inner.found, bind_eq_ok.mpr ⟨_, declare_of_fresh fresh, ?_⟩⟩
      exact bind_eq_ok.mpr ⟨_, declareAll_of_allFresh allFresh, bind_eq_ok.mpr ⟨inner, bodyWalked, rfl⟩⟩
  | .giveBack _ _, walk, bound, mayReturn => by
      rcases ofExpr?_of_bound bound walk.found with ⟨found, valueWalked⟩
      refine ⟨found, (if_pos (mayReturn rfl)).trans ?_⟩
      exact bind_eq_ok.mpr ⟨found, valueWalked, rfl⟩

theorem ofStmts_of_bound (inFunction : Bool) : ∀ (ss : List Stmt) (walk : Walk),
    Stmt.AllBound known walk.scopes ss → MayReturn inFunction (Stmt.returnsAny ss) →
      ∃ after, ofStmts inFunction ss walk = .ok after
  | [], walk, _, _ => ⟨walk, rfl⟩
  | first :: rest, walk, ⟨firstBound, restBound⟩, mayReturn => by
      rcases ofStmt_of_bound inFunction first walk firstBound mayReturn.or.1 with ⟨found, firstWalked⟩
      rcases ofStmts_of_bound inFunction rest ⟨_, found⟩ restBound mayReturn.or.2 with ⟨after, restWalked⟩
      exact ⟨after, bind_eq_ok.mpr ⟨_, firstWalked, restWalked⟩⟩

theorem ofStmt?_of_bound (inFunction : Bool) : ∀ (s : Option Stmt) (walk : Walk),
    Stmt.Bound? known walk.scopes s → MayReturn inFunction (Stmt.returns? s) →
      ∃ found, ofStmt? inFunction s walk = .ok ⟨Stmt.extend? walk.scopes s, found⟩
  | none, walk, _, _ => ⟨walk.found, rfl⟩
  | some s, walk, bound, mayReturn => by
      have walked := ofStmt_of_bound inFunction s walk bound mayReturn
      exact walked

theorem ofBranch_of_bound (inFunction : Bool) : ∀ (s : Option Stmt) (walk : Walk),
    Stmt.BranchBound known walk.scopes s → MayReturn inFunction (Stmt.returns? s) →
      ∃ found, ofStmt? inFunction s walk = .ok ⟨walk.scopes, found⟩
  | none, walk, _, _ => ⟨walk.found, rfl⟩
  | some s, walk, ⟨bound, nothing⟩, mayReturn => by
      have walked := ofStmt_of_bound inFunction s walk bound mayReturn
      rw [Stmt.extend_eq nothing] at walked
      exact walked

end

end Resolution

/-- Every reference is known, under any distance. -/
def everything : Known := fun _ _ => True

/-- A program of the grammar is accepted when its declarations are new, its initializers do not read their own
variables, and each `return` is in a function. -/
theorem resolve_ok_iff {program : List Stmt} (wellFormed : Stmt.AllWellFormed program) :
    (∃ references, resolve program = .ok references) ↔
      Stmt.AllBound everything [] program ∧ Stmt.returnsAny program = false := by
  constructor
  · rintro ⟨references, resolved⟩
    exact ⟨(resolve_ok wellFormed resolved).2 everything fun _ _ => trivial, returnsAny_of_resolved resolved⟩
  · rintro ⟨bound, noReturn⟩
    have mayReturn : Resolution.MayReturn false (Stmt.returnsAny program) := by
      intro returns
      rw [noReturn] at returns
      cases returns
    rcases Resolution.ofStmts_of_bound false program ⟨[], []⟩ bound mayReturn with ⟨after, walked⟩
    exact ⟨after.found.reverse, bind_eq_ok.mpr ⟨after, walked, rfl⟩⟩

/-! ## Other scopes around -/

variable {chain other : ScopeChain}

mutual

theorem Expr.Bound.elsewhere {unready : Option String} :
    ∀ {e : Expr}, e.Bound everything chain unready → e.Bound everything other unready
  | .constant _, _ => trivial
  | .group inner, bound => Expr.Bound.elsewhere (e := inner) bound
  | .unary _ _ operand, bound => Expr.Bound.elsewhere (e := operand) bound
  | .binary _ _ _ _, ⟨left, right⟩ => ⟨left.elsewhere, right.elsewhere⟩
  | .logical _ _ _, ⟨left, right⟩ => ⟨left.elsewhere, right.elsewhere⟩
  | .variable _ _, ⟨ready, _⟩ => ⟨ready, trivial⟩
  | .assign _ _ _, ⟨value, _⟩ => ⟨value.elsewhere, trivial⟩
  | .call _ _ _, ⟨callee, arguments⟩ => ⟨callee.elsewhere, Expr.AllBound.elsewhere arguments⟩

theorem Expr.AllBound.elsewhere {unready : Option String} :
    ∀ {es : List Expr}, Expr.AllBound everything chain unready es → Expr.AllBound everything other unready es
  | [], _ => trivial
  | _ :: _, ⟨first, rest⟩ => ⟨first.elsewhere, Expr.AllBound.elsewhere rest⟩

end

theorem Expr.Bound?.elsewhere {unready : Option String} :
    ∀ {e : Option Expr}, Expr.Bound? everything chain unready e → Expr.Bound? everything other unready e
  | none, _ => trivial
  | some e, bound => Expr.Bound.elsewhere (e := e) bound

namespace Resolution

theorem fresh_iff_of_head? {name : String} (same : chain.head? = other.head?) :
    Fresh name chain ↔ Fresh name other := by
  match chain, other with
  | [], [] => exact .rfl
  | _ :: _, _ :: _ =>
      cases same
      exact .rfl

theorem unready_eq_of_head? {target : Identifier} (same : chain.head? = other.head?) :
    unready target chain = unready target other := by
  match chain, other with
  | [], [] | _ :: _, _ :: _ => rfl

/-- Every new scope begins without names. -/
theorem head?_inner (chain other : ScopeChain) :
    List.head? ([] :: chain : ScopeChain) = List.head? ([] :: other : ScopeChain) := rfl

theorem head?_extended {name : String} (same : chain.head? = other.head?) :
    (extended name chain).head? = (extended name other).head? := by
  match chain, other with
  | [], [] => rfl
  | _ :: _, _ :: _ =>
      cases same
      rfl

theorem head?_extendedAll {targets : List Identifier} (same : chain.head? = other.head?) :
    (extendedAll targets chain).head? = (extendedAll targets other).head? := by
  induction targets generalizing chain other with
  | nil => exact same
  | cons target rest inductionHypothesis => exact inductionHypothesis (head?_extended same)

theorem AllFresh.elsewhere {targets : List Identifier} (same : chain.head? = other.head?)
    (allFresh : AllFresh targets chain) : AllFresh targets other := by
  induction targets generalizing chain other with
  | nil => trivial
  | cons target rest inductionHypothesis =>
      exact ⟨(fresh_iff_of_head? same).mp allFresh.1, inductionHypothesis (head?_extended same) allFresh.2⟩

end Resolution

namespace Stmt

open Resolution

theorem head?_extend {s : Stmt} (same : chain.head? = other.head?) :
    (s.extend chain).head? = (s.extend other).head? := by
  cases s with
  | declare target value => exact head?_extended same
  | function target parameters body => exact head?_extended same
  | _ => exact same

theorem head?_extend? {s : Option Stmt} (same : chain.head? = other.head?) :
    (extend? chain s).head? = (extend? other s).head? := by
  cases s with
  | none => exact same
  | some s => exact head?_extend same

mutual

/-- Only the innermost scope matters. -/
theorem Bound.elsewhere : ∀ {s : Stmt} {chain other : ScopeChain}, chain.head? = other.head? →
    s.Bound everything chain → s.Bound everything other
  | .expression value, _, _, _, bound => Expr.Bound.elsewhere (e := value) bound
  | .print _ _, _, _, _, bound => Expr.AllBound.elsewhere bound
  | .declare _ _, _, _, same, ⟨fresh, value⟩ => by
      refine ⟨(fresh_iff_of_head? same).mp fresh, ?_⟩
      rw [← unready_eq_of_head? same]
      exact value.elsewhere
  | .block body, _, other, _, bound => by
      have moved : AllBound everything ([] :: other) body := AllBound.elsewhere (head?_inner _ _) bound
      exact moved
  | .branch _ _ _, _, _, same, ⟨condition, ⟨whenTrue, nothing⟩, whenFalse⟩ =>
      ⟨condition.elsewhere, ⟨whenTrue.elsewhere same, nothing⟩, whenFalse.elsewhere same⟩
  | .whileLoop _ _, _, _, same, ⟨condition, body, nothing⟩ =>
      ⟨condition.elsewhere, body.elsewhere same, nothing⟩
  | .forLoop first _ _ _, _, other, _, ⟨begins, condition, increment, body, nothing⟩ => by
      have moved : Bound? everything ([] :: other) first := begins.elsewhere (head?_inner _ _)
      exact ⟨moved, condition.elsewhere, increment.elsewhere,
        body.elsewhere (head?_extend? (head?_inner _ _)), nothing⟩
  | .function target parameters _, _, other, same, ⟨fresh, allFresh, body⟩ => by
      have moved : AllFresh parameters ([] :: extended target.name other) := allFresh.elsewhere (head?_inner _ _)
      exact ⟨(fresh_iff_of_head? same).mp fresh, moved, body.elsewhere (head?_extendedAll (head?_inner _ _))⟩
  | .giveBack _ _, _, _, _, bound => Expr.Bound?.elsewhere bound

theorem AllBound.elsewhere : ∀ {ss : List Stmt} {chain other : ScopeChain}, chain.head? = other.head? →
    AllBound everything chain ss → AllBound everything other ss
  | [], _, _, _, _ => trivial
  | _ :: _, _, _, same, ⟨first, rest⟩ => ⟨first.elsewhere same, rest.elsewhere (head?_extend same)⟩

theorem Bound?.elsewhere : ∀ {s : Option Stmt} {chain other : ScopeChain}, chain.head? = other.head? →
    Bound? everything chain s → Bound? everything other s
  | none, _, _, _, _ => trivial
  | some s, _, _, same, bound => Bound.elsewhere (s := s) same bound

theorem BranchBound.elsewhere : ∀ {s : Option Stmt} {chain other : ScopeChain}, chain.head? = other.head? →
    BranchBound everything chain s → BranchBound everything other s
  | none, _, _, _, _ => trivial
  | some _, _, _, same, ⟨bound, nothing⟩ => ⟨bound.elsewhere same, nothing⟩

end

mutual

/-- What declares nothing may stand in any scope. -/
theorem Bound.anywhere : ∀ {s : Stmt}, s.declares = false → s.Bound everything chain →
    s.Bound everything other
  | .expression value, _, bound => Expr.Bound.elsewhere (e := value) bound
  | .print _ _, _, bound => Expr.AllBound.elsewhere bound
  | .block body, _, bound => by
      have moved : AllBound everything ([] :: other) body := AllBound.elsewhere (head?_inner _ _) bound
      exact moved
  | .branch _ _ _, _, ⟨condition, ⟨whenTrue, nothing⟩, whenFalse⟩ =>
      ⟨condition.elsewhere, ⟨whenTrue.anywhere nothing, nothing⟩, whenFalse.anywhere⟩
  | .whileLoop _ _, _, ⟨condition, body, nothing⟩ => ⟨condition.elsewhere, body.anywhere nothing, nothing⟩
  | .forLoop first _ _ _, _, ⟨begins, condition, increment, body, nothing⟩ => by
      have moved : Bound? everything ([] :: other) first := begins.elsewhere (head?_inner _ _)
      exact ⟨moved, condition.elsewhere, increment.elsewhere,
        body.elsewhere (head?_extend? (head?_inner _ _)), nothing⟩
  | .giveBack _ _, _, bound => Expr.Bound?.elsewhere bound

theorem BranchBound.anywhere : ∀ {s : Option Stmt}, BranchBound everything chain s →
    BranchBound everything other s
  | none, _ => trivial
  | some _, ⟨bound, nothing⟩ => ⟨bound.anywhere nothing, nothing⟩

end

/-! ## The new program -/

theorem allBound_initializer {known : Known} {first : Option Stmt} {rest : List Stmt} :
    AllBound known chain (first.toList ++ rest) ↔
      Bound? known chain first ∧ AllBound known (extend? chain first) rest := by
  cases first with
  | none => exact ⟨fun bound => ⟨trivial, bound⟩, fun bound => bound.2⟩
  | some first => exact .rfl

theorem allBound_increment {increment : Option Expr} :
    AllBound everything chain (increment.map Stmt.expression).toList ↔
      Expr.Bound? everything other none increment := by
  cases increment with
  | none => exact .rfl
  | some increment =>
      refine ⟨fun bound => ?_, fun bound => ⟨?_, trivial⟩⟩
      · exact Expr.Bound.elsewhere (e := increment) bound.1
      · exact Expr.Bound.elsewhere (e := increment) bound

/-- A `for` is as good as the `while`, whose body has one more scope around it. -/
theorem bound_asWhile {first : Option Stmt} {condition increment : Option Expr} {body : Stmt}
    (nothing : body.declares = false) : (asWhile first condition increment body).Bound everything chain ↔
      (Stmt.forLoop first condition increment body).Bound everything chain := by
  -- The constant that stands for a missing condition has no references.
  have conditionBound {scopes : ScopeChain} :
      (condition.getD (.constant (.truth true))).Bound everything scopes none ↔
        Expr.Bound? everything scopes none condition := by
    cases condition <;> exact .rfl
  constructor
  · intro bound
    rcases allBound_initializer.mp bound with ⟨begins, ⟨goesOn, ⟨bodyBound, increments⟩, _⟩, _⟩
    exact ⟨begins, conditionBound.mp goesOn, allBound_increment.mp increments,
      bodyBound.anywhere nothing, nothing⟩
  · rintro ⟨begins, goesOn, increments, bodyBound, _⟩
    refine allBound_initializer.mpr ⟨begins, ⟨conditionBound.mpr goesOn, ⟨?_, ?_⟩, rfl⟩, trivial⟩
    · exact bodyBound.anywhere nothing
    · exact allBound_increment.mpr increments

theorem bound_forLoop_congr {first : Option Stmt} {condition increment : Option Expr} {body bodyToo : Stmt}
    (declares : bodyToo.declares = body.declares)
    (same : ∀ {scopes : ScopeChain}, bodyToo.Bound everything scopes ↔ body.Bound everything scopes) :
    (Stmt.forLoop first condition increment bodyToo).Bound everything chain ↔
      (Stmt.forLoop first condition increment body).Bound everything chain := by
  refine and_congr .rfl (and_congr .rfl (and_congr .rfl (and_congr same ?_)))
  rw [declares]

theorem extend_of_desugars {s t : Stmt} (desugars : Desugars s t) (chain : ScopeChain) :
    t.extend chain = s.extend chain := by
  cases desugars <;> rfl

mutual

theorem bound_of_desugars : ∀ {s t : Stmt} {chain : ScopeChain}, Desugars s t → s.WellFormed →
    (t.Bound everything chain ↔ s.Bound everything chain)
  | _, _, _, .expression _, _ | _, _, _, .print _ _, _ | _, _, _, .declare _ _, _
  | _, _, _, .giveBack _ _, _ => .rfl
  | _, _, chain, .block inside, formed => by
      have inner : AllBound everything ([] :: chain) _ ↔ _ := allBound_of_desugar inside formed
      exact inner
  | _, _, _, .branch _ ifTrue ifFalse, ⟨_, trueFormed, _, _, falseFormed⟩ => by
      refine and_congr .rfl (and_congr (and_congr (bound_of_desugars ifTrue trueFormed) ?_) ?_)
      · rw [declares_of_desugars ifTrue]
      · exact branchBound_of_desugars ifFalse falseFormed
  | _, _, _, .whileLoop _ inside, ⟨_, formed, _⟩ => by
      refine and_congr .rfl (and_congr (bound_of_desugars inside formed) ?_)
      rw [declares_of_desugars inside]
  | _, _, _, .kept _ _ _ inside, ⟨_, _, _, formed, _⟩ =>
      bound_forLoop_congr (declares_of_desugars inside) (bound_of_desugars inside formed)
  | _, _, _, .rewritten _ _ _ inside, ⟨_, _, _, formed, nothing⟩ =>
      (bound_asWhile ((declares_of_desugars inside).trans nothing)).trans
        (bound_forLoop_congr (declares_of_desugars inside) (bound_of_desugars inside formed))
  | _, _, _, .function _ _ inside, ⟨_, formed⟩ =>
      and_congr .rfl (and_congr .rfl (allBound_of_desugar inside formed))

theorem allBound_of_desugar : ∀ {ss ts : List Stmt} {chain : ScopeChain}, DesugarAll ss ts →
    AllWellFormed ss → (AllBound everything chain ts ↔ AllBound everything chain ss)
  | _, _, _, .nil, _ => .rfl
  | _, _, _, .cons head tail, ⟨first, rest⟩ => by
      refine and_congr (bound_of_desugars head first) ?_
      rw [extend_of_desugars head]
      exact allBound_of_desugar tail rest

theorem branchBound_of_desugars : ∀ {s t : Option Stmt} {chain : ScopeChain}, Desugars? s t →
    BranchWellFormed s → (BranchBound everything chain t ↔ BranchBound everything chain s)
  | _, _, _, .none, _ => .rfl
  | _, _, _, .some present, ⟨formed, _⟩ => by
      refine and_congr (bound_of_desugars present formed) ?_
      rw [declares_of_desugars present]

end

end Stmt

/-- The scope analysis accepts a program exactly when it accepts it with `while` in place of `for`. -/
theorem resolve_ok_iff_of_desugar {program unfolded : List Stmt} (wellFormed : Stmt.AllWellFormed program)
    (desugar : Stmt.DesugarAll program unfolded) :
    (∃ references, resolve program = .ok references) ↔ ∃ references, resolve unfolded = .ok references := by
  rw [resolve_ok_iff wellFormed, resolve_ok_iff (Stmt.allWellFormed_of_desugar desugar wellFormed),
    Stmt.allBound_of_desugar desugar wellFormed, Stmt.returnsAny_of_desugar desugar]

end ScopedScript
