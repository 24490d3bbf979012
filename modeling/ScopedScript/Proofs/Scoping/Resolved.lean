import ScopedScript.Proofs.Grammar.ExpressionRules
import ScopedScript.Proofs.Grammar.References
import ScopedScript.Proofs.Scoping.Bound
namespace ScopedScript

/-!
# What the scope analysis settles

A walk puts the references that it finds in front of those already found, one for every reference of the
program and in the same order.  Whoever knows all of them knows the program to be `Bound`.  The grammar
is needed for one thing only: branches and bodies of loops declare nothing, so a walk over them leaves
the open scopes as they were.
-/

open Resolution

/-- A walk has found references with these identities, and knowing them is enough for something. -/
def Finds (found after : List Reference) (refs : List RefId) (Good : Known → Prop) : Prop :=
  ∃ new, after = new ++ found ∧ new.reverse.map Reference.ref = refs ∧
    ∀ known : Known, (∀ reference ∈ new, known reference.ref reference.distance?) → Good known

namespace Finds

variable {found middle after : List Reference} {refs others : List RefId} {Good Also : Known → Prop}

theorem nothing (good : ∀ known, Good known) : Finds found found [] Good :=
  ⟨[], rfl, rfl, fun known _ => good known⟩

theorem imp (finds : Finds found after refs Good) (follows : ∀ known, Good known → Also known) :
    Finds found after refs Also := by
  rcases finds with ⟨new, same, listed, good⟩
  exact ⟨new, same, listed, fun known all => follows known (good known all)⟩

/-- One walk after another finds the references of both. -/
theorem append (first : Finds found middle refs Good) (second : Finds middle after others Also) :
    Finds found after (refs ++ others) (fun known => Good known ∧ Also known) := by
  rcases first with ⟨new, same, listed, good⟩
  rcases second with ⟨newToo, sameToo, listedToo, goodToo⟩
  refine ⟨newToo ++ new, ?_, ?_, ?_⟩
  · rw [sameToo, same, List.append_assoc]
  · rw [List.reverse_append, List.map_append, listed, listedToo]
  · intro known all
    refine ⟨good known fun reference member => ?_, goodToo known fun reference member => ?_⟩
    · exact all reference (List.mem_append_right newToo member)
    · exact all reference (List.mem_append_left new member)

theorem noted (chain : ScopeChain) (ref : RefId) (access : Access) (target : Identifier) :
    Finds found (note chain ref access target found) [ref]
      (fun known => known ref (distance? chain target.name)) :=
  ⟨[⟨ref, access, target, distance? chain target.name⟩], rfl, rfl,
    fun _ all => all _ List.mem_cons_self⟩

end Finds

/-! ## Expressions -/

mutual

theorem ofExpr_finds (chain : ScopeChain) (unready : Option String) :
    ∀ (e : Expr) {found after : List Reference}, ofExpr chain unready e found = .ok after →
      Finds found after e.refs (fun known => e.Bound known chain unready)
  | .constant _, _, _, walked => by
      cases walked
      exact .nothing fun _ => trivial
  | .group inner, _, _, walked => ofExpr_finds chain unready inner walked
  | .unary _ _ operand, _, _, walked => ofExpr_finds chain unready operand walked
  | .binary _ _ left right, _, _, walked => by
      rcases bind_eq_ok.mp walked with ⟨_, leftWalked, rightWalked⟩
      exact (ofExpr_finds chain unready left leftWalked).append
        (ofExpr_finds chain unready right rightWalked)
  | .logical _ left right, _, _, walked => by
      rcases bind_eq_ok.mp walked with ⟨_, leftWalked, rightWalked⟩
      exact (ofExpr_finds chain unready left leftWalked).append
        (ofExpr_finds chain unready right rightWalked)
  | .variable ref target, _, _, walked => by
      rw [ofExpr] at walked
      split at walked
      · cases walked
      · rename_i ready
        cases walked
        exact (Finds.noted chain ref .read target).imp fun _ isKnown => ⟨ready, isKnown⟩
  | .assign ref target value, _, _, walked => by
      rcases bind_eq_ok.mp walked with ⟨_, valueWalked, noted⟩
      cases noted
      exact (ofExpr_finds chain unready value valueWalked).append (.noted chain ref .write target)
  | .call callee _ arguments, _, _, walked => by
      rcases bind_eq_ok.mp walked with ⟨_, calleeWalked, argumentsWalked⟩
      exact (ofExpr_finds chain unready callee calleeWalked).append
        (ofExprs_finds chain unready arguments argumentsWalked)

theorem ofExprs_finds (chain : ScopeChain) (unready : Option String) :
    ∀ (es : List Expr) {found after : List Reference}, ofExprs chain unready es found = .ok after →
      Finds found after (Expr.refsOf es) (fun known => Expr.AllBound known chain unready es)
  | [], _, _, walked => by
      cases walked
      exact .nothing fun _ => trivial
  | first :: rest, _, _, walked => by
      rcases bind_eq_ok.mp walked with ⟨_, firstWalked, restWalked⟩
      exact (ofExpr_finds chain unready first firstWalked).append
        (ofExprs_finds chain unready rest restWalked)

end

theorem ofExpr?_finds (chain : ScopeChain) (e : Option Expr) {found after : List Reference}
    (walked : ofExpr? chain e found = .ok after) :
    Finds found after (Expr.refs? e) (fun known => Expr.Bound? known chain none e) := by
  cases e with
  | none =>
      cases walked
      exact .nothing fun _ => trivial
  | some e => exact ofExpr_finds chain none e walked

/-! ## Statements -/

/-- A walk over statements has found their references and declared their names. -/
structure Walked (before after : Walk) (chain : ScopeChain) (refs : List RefId)
    (Good : Known → Prop) : Prop where
  scopes : after.scopes = chain
  finds : Finds before.found after.found refs Good

theorem unready_extended (target : Identifier) (chain : ScopeChain) :
    unready target (extended target.name chain) = unready target chain := by
  cases chain <;> rfl

theorem ofStmt_declare_walked {inFunction : Bool} {target : Identifier} {value : Option Expr}
    {walk after : Walk} (walked : ofStmt inFunction (.declare target value) walk = .ok after) :
    Walked walk after (extended target.name walk.scopes) (Expr.refs? value)
      (fun known => (Stmt.declare target value).Bound known walk.scopes) := by
  rw [ofStmt] at walked
  rcases bind_eq_ok.mp walked with ⟨chain, declared, rest⟩
  rcases declare_ok declared with ⟨fresh, same⟩
  subst same
  cases value with
  | none =>
      cases rest
      exact ⟨rfl, .nothing fun _ => ⟨fresh, trivial⟩⟩
  | some value =>
      rcases bind_eq_ok.mp rest with ⟨found, valueWalked, made⟩
      cases made
      rw [unready_extended] at valueWalked
      exact ⟨rfl, (ofExpr_finds _ _ value valueWalked).imp fun _ bound => ⟨fresh, bound⟩⟩

theorem ofStmt_expression_walked {inFunction : Bool} {value : Expr} {walk after : Walk}
    (walked : ofStmt inFunction (.expression value) walk = .ok after) :
    Walked walk after walk.scopes value.refs
      (fun known => (Stmt.expression value).Bound known walk.scopes) := by
  rw [ofStmt] at walked
  rcases bind_eq_ok.mp walked with ⟨found, valueWalked, made⟩
  cases made
  exact ⟨rfl, ofExpr_finds walk.scopes none value valueWalked⟩

theorem ofStmt?_initializer_walked {inFunction : Bool} {first : Option Stmt} {walk after : Walk}
    (wellFormed : Stmt.InitializerWellFormed first)
    (walked : ofStmt? inFunction first walk = .ok after) :
    Walked walk after (Stmt.extend? walk.scopes first) (Stmt.refs? first)
      (fun known => Stmt.Bound? known walk.scopes first) := by
  match first, wellFormed with
  | none, _ =>
      cases walked
      exact ⟨rfl, .nothing fun _ => trivial⟩
  | some (.declare target value), _ =>
      rw [ofStmt?] at walked
      exact ofStmt_declare_walked walked
  | some (.expression value), _ =>
      rw [ofStmt?] at walked
      exact ofStmt_expression_walked walked

mutual

/-- A walk over a statement that the grammar has settles its references. -/
theorem ofStmt_walked (inFunction : Bool) : ∀ (s : Stmt), s.WellFormed → ∀ {walk after : Walk},
    ofStmt inFunction s walk = .ok after →
      Walked walk after (s.extend walk.scopes) s.refs (fun known => s.Bound known walk.scopes)
  | .expression _, _, _, _, walked => ofStmt_expression_walked walked
  | .print _ values, _, walk, _, walked => by
      rw [ofStmt] at walked
      rcases bind_eq_ok.mp walked with ⟨found, valuesWalked, made⟩
      cases made
      exact ⟨rfl, ofExprs_finds walk.scopes none values valuesWalked⟩
  | .declare _ _, _, _, _, walked => ofStmt_declare_walked walked
  | .block body, wellFormed, walk, _, walked => by
      rw [ofStmt] at walked
      rcases bind_eq_ok.mp walked with ⟨inner, bodyWalked, made⟩
      cases made
      exact ⟨rfl, (ofStmts_walked inFunction body wellFormed bodyWalked).finds⟩
  | .branch condition whenTrue whenFalse, ⟨_, trueFormed, nothing, _, falseFormed⟩, walk, _,
      walked => by
      rw [ofStmt] at walked
      rcases bind_eq_ok.mp walked with ⟨found, conditionWalked, walked⟩
      rcases bind_eq_ok.mp walked with ⟨middle, trueWalked, falseWalked⟩
      have whenTrueSettled := ofStmt_walked inFunction whenTrue trueFormed trueWalked
      have same : middle.scopes = walk.scopes :=
        whenTrueSettled.scopes.trans (Stmt.extend_eq nothing walk.scopes)
      have whenFalseSettled := ofBranch_walked inFunction whenFalse falseFormed falseWalked
      rw [same] at whenFalseSettled
      refine ⟨whenFalseSettled.scopes, ?_⟩
      have all := ((ofExpr_finds walk.scopes none condition conditionWalked).append
        whenTrueSettled.finds).append whenFalseSettled.finds
      exact all.imp fun _ bound => ⟨bound.1.1, ⟨bound.1.2, nothing⟩, bound.2⟩
  | .whileLoop condition body, ⟨_, bodyFormed, nothing⟩, walk, _, walked => by
      rw [ofStmt] at walked
      rcases bind_eq_ok.mp walked with ⟨found, conditionWalked, bodyWalked⟩
      have bodySettled := ofStmt_walked inFunction body bodyFormed bodyWalked
      refine ⟨bodySettled.scopes.trans (Stmt.extend_eq nothing walk.scopes), ?_⟩
      have all := (ofExpr_finds walk.scopes none condition conditionWalked).append bodySettled.finds
      exact all.imp fun _ bound => ⟨bound.1, bound.2, nothing⟩
  | .forLoop first condition increment body, ⟨firstFormed, _, _, bodyFormed, nothing⟩, walk, _,
      walked => by
      rw [ofStmt] at walked
      rcases bind_eq_ok.mp walked with ⟨inner, firstWalked, walked⟩
      rcases bind_eq_ok.mp walked with ⟨_, conditionWalked, walked⟩
      rcases bind_eq_ok.mp walked with ⟨_, incrementWalked, walked⟩
      rcases bind_eq_ok.mp walked with ⟨_, bodyWalked, made⟩
      cases made
      have firstSettled := ofStmt?_initializer_walked firstFormed firstWalked
      have bodySettled := ofStmt_walked inFunction body bodyFormed bodyWalked
      dsimp only at bodySettled
      rw [firstSettled.scopes] at conditionWalked incrementWalked bodySettled
      refine ⟨rfl, ?_⟩
      have all := ((firstSettled.finds.append (ofExpr?_finds _ condition conditionWalked)).append
        (ofExpr?_finds _ increment incrementWalked)).append bodySettled.finds
      exact all.imp fun _ bound =>
        ⟨bound.1.1.1, bound.1.1.2, bound.1.2, bound.2, nothing⟩
  | .function target parameters body, ⟨_, bodyFormed⟩, walk, _, walked => by
      rw [ofStmt] at walked
      rcases bind_eq_ok.mp walked with ⟨chain, declared, walked⟩
      rcases bind_eq_ok.mp walked with ⟨inside, allDeclared, walked⟩
      rcases bind_eq_ok.mp walked with ⟨_, bodyWalked, made⟩
      cases made
      rcases declare_ok declared with ⟨fresh, same⟩
      subst same
      rcases declareAll_ok allDeclared with ⟨allFresh, sameInside⟩
      subst sameInside
      refine ⟨rfl, ?_⟩
      exact (ofStmts_walked true body bodyFormed bodyWalked).finds.imp fun _ bound =>
        ⟨fresh, allFresh, bound⟩
  | .giveBack _ value, _, walk, _, walked => by
      rw [ofStmt] at walked
      split at walked
      · rcases bind_eq_ok.mp walked with ⟨_, valueWalked, made⟩
        cases made
        exact ⟨rfl, ofExpr?_finds walk.scopes value valueWalked⟩
      · cases walked

theorem ofStmts_walked (inFunction : Bool) : ∀ (ss : List Stmt), Stmt.AllWellFormed ss →
    ∀ {walk after : Walk}, ofStmts inFunction ss walk = .ok after →
      Walked walk after after.scopes (Stmt.refsOf ss)
        (fun known => Stmt.AllBound known walk.scopes ss)
  | [], _, _, _, walked => by
      cases walked
      exact ⟨rfl, .nothing fun _ => trivial⟩
  | first :: rest, ⟨firstFormed, restFormed⟩, walk, _, walked => by
      rw [ofStmts] at walked
      rcases bind_eq_ok.mp walked with ⟨middle, firstWalked, restWalked⟩
      have firstSettled := ofStmt_walked inFunction first firstFormed firstWalked
      have restSettled := ofStmts_walked inFunction rest restFormed restWalked
      rw [firstSettled.scopes] at restSettled
      exact ⟨rfl, firstSettled.finds.append restSettled.finds⟩

theorem ofBranch_walked (inFunction : Bool) : ∀ (s : Option Stmt), Stmt.BranchWellFormed s →
    ∀ {walk after : Walk}, ofStmt? inFunction s walk = .ok after →
      Walked walk after walk.scopes (Stmt.refs? s)
        (fun known => Stmt.BranchBound known walk.scopes s)
  | none, _, _, _, walked => by
      cases walked
      exact ⟨rfl, .nothing fun _ => trivial⟩
  | some other, ⟨wellFormed, nothing⟩, walk, _, walked => by
      rw [ofStmt?] at walked
      have settled := ofStmt_walked inFunction other wellFormed walked
      refine ⟨settled.scopes.trans (Stmt.extend_eq nothing walk.scopes), ?_⟩
      exact settled.finds.imp fun _ bound => ⟨bound, nothing⟩

end

/-- The analysis of a well-formed program lists its references in order, and whoever knows them knows
the program to be bound. -/
theorem resolve_ok {program : List Stmt} {references : List Reference}
    (wellFormed : Stmt.AllWellFormed program) (resolved : resolve program = .ok references) :
    references.map Reference.ref = Stmt.refsOf program ∧
      ∀ known : Known, (∀ reference ∈ references, known reference.ref reference.distance?) →
        Stmt.AllBound known [] program := by
  rcases bind_eq_ok.mp resolved with ⟨walk, walked, made⟩
  cases made
  rcases (ofStmts_walked false program wellFormed walked).finds with ⟨new, same, listed, good⟩
  rw [List.append_nil] at same
  rw [same]
  exact ⟨listed, fun known all => good known fun reference member =>
    all reference (List.mem_reverse.mpr member)⟩

end ScopedScript
