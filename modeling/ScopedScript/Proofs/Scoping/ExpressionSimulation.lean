import ScopedScript.Proofs.Scoping.Arrivals
namespace ScopedScript

/-!
# Expressions, followed

One case for each kind of expression.  In every case the machine takes one step into the expression, which
pays for the unit of fuel that the evaluator spends on it; the parts are then followed with what is left.
The only place where a recorded distance matters is a variable or an assignment, and there the machine is
`Sound` because the scopes of the machine represent the scopes of the analysis.
-/

open Cells (Env Store Run)
open Resolution (ScopeChain distance?)

/-- With so much fuel the machine follows the evaluator through every expression. -/
def FollowsExpressions (fuel : Nat) : Prop :=
  ∀ {known : Known} {depth : Nat} {w : World} {chain : ScopeChain} {unready : Option String} {env : Env}
    {e : Expr} {stack : ValueStack}, Stands known depth w chain unready env →
    e.Bound known chain unready → (∀ name, unready = some name → stack.isInitializing name) →
    Simulates fuel ⟨w.state, .evaluate e stack⟩ (ValueAt known depth w stack)
      (UnwindsValue known depth w stack) (Cells.evaluate fuel depth env e w.store)

section

variable {known : Known} {depth fuel n : Nat} {base w : World} {chain : ScopeChain}
  {unready : Option String} {env : Env} {stack : ValueStack}

/-- Where no initializer is under way, nothing need be waiting for one. -/
theorem FollowsExpressions.ready (follows : FollowsExpressions fuel)
    (stands : Stands known depth w chain none env) {e : Expr} (bound : e.Bound known chain none) :
    Simulates fuel ⟨w.state, .evaluate e stack⟩ (ValueAt known depth w stack)
      (UnwindsValue known depth w stack) (Cells.evaluate fuel depth env e w.store) := by
  refine follows stands bound ?_
  intro name impossible
  cases impossible

/-- Where an expression is to be evaluated, a recorded distance fits. -/
theorem Stands.sound_evaluate (stands : Stands known depth w chain unready env) {e : Expr}
    (bound : e.Bound known chain unready) : Config.Sound ⟨w.state, .evaluate e stack⟩ := by
  match e, bound with
  | .variable ref target, ⟨ready, isKnown⟩ =>
      refine ⟨fun distance recorded => ?_, rfl⟩
      have near : distance? chain target.name = some distance :=
        (stands.agree.distances ref _ isKnown).symm.trans recorded
      rcases stands.represents.present target.name distance near with
        ⟨holder, cell, outward, _, _, isBound⟩
      exact ⟨holder, outward, isBound.resolve_right fun impossible => ready impossible.1⟩
  | .constant _, _ => exact Config.sound_evaluate rfl
  | .group _, _ => exact Config.sound_evaluate rfl
  | .unary _ _ _, _ => exact Config.sound_evaluate rfl
  | .binary _ _ _ _, _ => exact Config.sound_evaluate rfl
  | .logical _ _ _, _ => exact Config.sound_evaluate rfl
  | .assign _ _ _, _ => exact Config.sound_evaluate rfl
  | .call _ _ _, _ => exact Config.sound_evaluate rfl

/-- Where a value is to be assigned, a recorded distance fits. -/
theorem Stands.sound_assign (stands : Stands known depth w chain unready env) {ref : RefId}
    {target : Identifier} (isKnown : known ref (distance? chain target.name)) {value : Value}
    (waiting : ∀ name, unready = some name → stack.isInitializing name) :
    Config.Sound ⟨w.state, .value value (.assign ref target stack)⟩ := by
  refine ⟨fun distance recorded => ?_, rfl⟩
  have near : distance? chain target.name = some distance :=
    (stands.agree.distances ref _ isKnown).symm.trans recorded
  rcases stands.represents.present target.name distance near with
    ⟨holder, cell, outward, _, _, isBound⟩
  refine ⟨holder, outward, isBound.imp_right ?_⟩
  rintro ⟨isUnready, here⟩
  subst here
  cases outward
  exact ⟨rfl, waiting target.name isUnready⟩

/-! ## Operators -/

/-- The result of an operator, or its failure, is the same on both sides. -/
theorem deliver_simulates (moved : Moved known depth false base w) (line : Nat)
    {result : Except RuntimeCause Value} (plain : ∀ value, result = .ok value → value.isClosure = false) :
    Simulates n (Config.deliver w.state line result stack) (ValueAt known depth base stack)
      (UnwindsValue known depth base stack) (Cells.deliver line result w.store) := by
  cases result with
  | error cause => exact Simulates.value_fails moved
  | ok value => exact Simulates.value_arrives moved (.plain (plain value rfl))

theorem evaluate_unary_simulates (follows : FollowsExpressions fuel)
    (stands : Stands known depth w chain unready env) {op : UnaryOp} {line : Nat} {operand : Expr}
    (bound : operand.Bound known chain unready)
    (waiting : ∀ name, unready = some name → stack.isInitializing name) :
    Simulates (fuel + 1) ⟨w.state, .evaluate (.unary op line operand) stack⟩
      (ValueAt known depth w stack) (UnwindsValue known depth w stack)
      (Cells.evaluate (fuel + 1) depth env (.unary op line operand) w.store) := by
  rw [Cells.evaluate]
  refine .step (Config.sound_evaluate rfl) ?_
  refine .value_then (.refl stands.agree) (fun _ _ => rfl) (follows stands bound waiting) ?_
  intro later value other _ moved alike
  refine .ahead (Config.sound_value rfl) ?_
  rw [← op.apply_similar alike.similar]
  exact deliver_simulates moved line fun _ => UnaryOp.isClosure_apply

theorem evaluate_binary_simulates (follows : FollowsExpressions fuel)
    (stands : Stands known depth w chain unready env) {op : BinaryOp} {line : Nat} {left right : Expr}
    (boundLeft : left.Bound known chain unready) (boundRight : right.Bound known chain unready)
    (waiting : ∀ name, unready = some name → stack.isInitializing name) :
    Simulates (fuel + 1) ⟨w.state, .evaluate (.binary op line left right) stack⟩
      (ValueAt known depth w stack) (UnwindsValue known depth w stack)
      (Cells.evaluate (fuel + 1) depth env (.binary op line left right) w.store) := by
  rw [Cells.evaluate]
  refine .step (Config.sound_evaluate rfl) ?_
  refine .value_then (.refl stands.agree) (fun _ _ => rfl) (follows stands boundLeft waiting) ?_
  intro middle leftValue leftOther moved _ leftAlike
  refine .ahead (Config.sound_value rfl) ?_
  refine .value_then moved (fun _ _ => rfl) (follows (stands.after moved) boundRight waiting) ?_
  intro later value other movedLater movedAll alike
  refine .ahead (Config.sound_value rfl) ?_
  rw [← op.apply_similar (movedLater.grows.alike leftAlike).similar alike.similar]
  exact deliver_simulates movedAll line fun _ => BinaryOp.isClosure_apply

theorem evaluate_logical_simulates (follows : FollowsExpressions fuel)
    (stands : Stands known depth w chain unready env) {op : LogicalOp} {left right : Expr}
    (boundLeft : left.Bound known chain unready) (boundRight : right.Bound known chain unready)
    (waiting : ∀ name, unready = some name → stack.isInitializing name) :
    Simulates (fuel + 1) ⟨w.state, .evaluate (.logical op left right) stack⟩
      (ValueAt known depth w stack) (UnwindsValue known depth w stack)
      (Cells.evaluate (fuel + 1) depth env (.logical op left right) w.store) := by
  rw [Cells.evaluate]
  refine .step (Config.sound_evaluate rfl) ?_
  refine .value_then (.refl stands.agree) (fun _ _ => rfl) (follows stands boundLeft waiting) ?_
  intro later value other moved _ alike
  refine .ahead (Config.sound_value rfl) ?_
  change Simulates fuel (if op.isDecidedBy value then _ else _) _ _ _
  rw [op.isDecidedBy_eq alike.similar]
  split
  · exact Simulates.value_arrives moved alike
  · exact .rebase_value moved (follows (stands.after moved) boundRight waiting)

/-! ## Variables -/

theorem evaluate_variable_simulates (stands : Stands known depth w chain unready env) {ref : RefId}
    {target : Identifier} (bound : (Expr.variable ref target).Bound known chain unready) :
    Simulates (fuel + 1) ⟨w.state, .evaluate (.variable ref target) stack⟩
      (ValueAt known depth w stack) (UnwindsValue known depth w stack)
      (Cells.evaluate (fuel + 1) depth env (.variable ref target) w.store) := by
  rw [Cells.evaluate]
  refine .step (stands.sound_evaluate bound) ?_
  change Simulates fuel (Config.evaluate w.state (.variable ref target) stack) _ _ _
  rw [Config.evaluate]
  rcases read_alike stands.agree stands.represents bound.1 bound.2 with
    ⟨value, other, read, readToo, alike⟩ | ⟨error, read, readToo⟩
  · rw [read, readToo]
    exact Simulates.value_arrives (.refl stands.agree) alike
  · rw [read, readToo]
    exact ⟨_, .refl _, w, rfl, rfl, .refl stands.agree⟩

theorem evaluate_assign_simulates (follows : FollowsExpressions fuel)
    (stands : Stands known depth w chain unready env) {ref : RefId} {target : Identifier} {value : Expr}
    (bound : value.Bound known chain unready) (isKnown : known ref (distance? chain target.name))
    (waiting : ∀ name, unready = some name → stack.isInitializing name) :
    Simulates (fuel + 1) ⟨w.state, .evaluate (.assign ref target value) stack⟩
      (ValueAt known depth w stack) (UnwindsValue known depth w stack)
      (Cells.evaluate (fuel + 1) depth env (.assign ref target value) w.store) := by
  rw [Cells.evaluate]
  refine .step (Config.sound_evaluate rfl) ?_
  refine .value_then (.refl stands.agree) (fun _ _ => rfl) (follows stands bound waiting) ?_
  intro later result other moved _ alike
  have standsLater := stands.after moved
  refine .ahead (standsLater.sound_assign isKnown waiting) ?_
  change Simulates fuel (Config.resumeValue later.state result (.assign ref target stack)) _ _ _
  rw [Config.resumeValue]
  rcases write_alike standsLater.agree standsLater.represents isKnown alike with
    ⟨last, assigned, written, movedLast⟩ | ⟨error, refused, refusedToo⟩
  · rw [assigned, Run.bind_of_done written]
    exact Simulates.value_arrives (moved.trans movedLast) (movedLast.grows.alike alike)
  · rw [refused, Run.bind_of_failed refusedToo]
    exact ⟨_, .refl _, later, rfl, rfl, moved⟩

end

end ScopedScript
