import ScopedScript.Proofs.Scoping.CallSimulation
namespace ScopedScript

/-!
# Statements, followed

Blocks, `for` loops and declarations are where the two sides keep their books differently: the machine
makes a scope and goes back to the one before, the evaluator extends a map and forgets it.  After every
statement, however it ended, both stand inside the same scopes of the analysis again.
-/

open Cells (Env Store Run)
open Config (Reaches)
open Resolution (ScopeChain extended extendedAll unready)

/-- The condition, the increment and the body of a loop are bound, and the body declares nothing. -/
structure Loop.Bound (known : Known) (chain : ScopeChain) (whole : Loop) : Prop where
  condition : Expr.Bound? known chain none whole.condition
  increment : Expr.Bound? known chain none whole.increment
  body : whole.body.Bound known chain
  declaresNothing : whole.body.declares = false

/-- With so much fuel the machine follows the evaluator through every loop, from a config that is one
step before a round. -/
def FollowsLoops (fuel : Nat) : Prop :=
  ∀ {known : Known} {depth : Nat} {base w : World} {chain : ScopeChain} {env : Env} {whole : Loop}
    {stack : FlowStack} {focus : Focus}, Moved known depth true base w →
    StandsOpen known depth w chain env → whole.Bound known chain → Config.Sound ⟨w.state, focus⟩ →
    Config.step ⟨w.state, focus⟩ = Config.beginRound w.state whole stack →
    Simulates fuel ⟨w.state, focus⟩
      (fun other => StmtAt known depth base chain stack (other, env))
      (UnwindsFlow known depth base stack) (Cells.loop fuel depth env whole w.store)

section

variable {known : Known} {depth fuel n : Nat} {base w later : World} {chain : ScopeChain} {env : Env}
  {stack : FlowStack}

/-- What declares nothing leaves everything as it was for the map in which it began. -/
theorem StandsOpen.behind {s : Stmt} {newEnv : Env} (stands : StandsOpen known depth w chain env)
    (moved : Moved known depth true w later) (declaresNothing : s.declares = false)
    (after : StandsOpen known depth later (s.extend chain) newEnv) :
    StandsOpen known depth later chain env := by
  refine ⟨⟨moved.agree, ?_⟩, ?_⟩
  · rw [moved.scope]
    exact moved.grows.represents stands.represents
  · have exact := after.exact
    rw [Stmt.extend_eq declaresNothing] at exact
    exact exact

/-! ## Loops -/

theorem Config.isDone_beginRound (state : State) (whole : Loop) (stack : FlowStack) :
    (Config.beginRound state whole stack).isDone = false := by
  unfold Config.beginRound
  split
  · rfl
  · rfl

/-- What is one step before a round is not done. -/
theorem Config.isDone_of_step_beginRound {config : Config} {state : State} {whole : Loop}
    (next : config.step = Config.beginRound state whole stack) : config.isDone = false := by
  by_contra done
  rw [Bool.not_eq_false] at done
  have still := Config.step_of_isDone done
  rw [← still, next, Config.isDone_beginRound] at done
  cases done

/-- The body of a loop, its increment and all rounds that follow. -/
theorem loopBody_simulates (followsBody : FollowsStatements fuel) (follows : FollowsExpressions fuel)
    (followsLoop : FollowsLoops fuel) {whole : Loop} (moved : Moved known depth true base w)
    (stands : StandsOpen known depth w chain env) (bound : whole.Bound known chain) :
    Simulates fuel ⟨w.state, .execute whole.body (.loopBody whole stack)⟩
      (fun other => StmtAt known depth base chain stack (other, env))
      (UnwindsFlow known depth base stack)
      ((do
        let (flow, _) ← Cells.execute fuel depth env whole.body
        match flow with
        | .returned value => return .returned value
        | .normal => do
          Cells.advance (Cells.evaluate fuel depth env) whole.increment
          Cells.loop fuel depth env whole : Run Flow) w.store) := by
  refine .stmt_then moved (fun _ _ => rfl) (followsBody stands bound.body) ?_
  rintro later flow ⟨otherFlow, newEnv⟩ movedLater movedAll alike after
  have standsLater := stands.behind movedLater bound.declaresNothing after
  cases alike with
  | returned alike =>
      refine .ahead Config.sound_flow ?_
      exact Simulates.stmt_arrives (n := fuel) movedAll (.returned alike) standsLater
  | normal =>
      have isBound := bound.increment
      cases hasIncrement : whole.increment with
      | none =>
          refine followsLoop movedAll standsLater bound Config.sound_flow ?_
          change Config.endRound later.state whole stack = _
          rw [Config.endRound, hasIncrement]
      | some increment =>
          rw [hasIncrement] at isBound
          refine .ahead Config.sound_flow ?_
          change Simulates fuel (Config.endRound later.state whole stack) _ _ _
          rw [Config.endRound, hasIncrement]
          dsimp only [Cells.advance]
          rw [Run.bind_assoc]
          refine .value_then_flow movedAll (fun _ _ => rfl)
            (follows.ready standsLater.toStands isBound) ?_
          intro last value other movedLast movedEnd _
          exact followsLoop movedEnd (standsLater.after movedLast) bound (Config.sound_value rfl) rfl

/-- A round of a loop and all rounds that follow. -/
theorem round_simulates (followsBody : FollowsStatements fuel) (follows : FollowsExpressions fuel)
    (followsLoop : FollowsLoops fuel) {whole : Loop} (moved : Moved known depth true base w)
    (stands : StandsOpen known depth w chain env) (bound : whole.Bound known chain) :
    Simulates fuel (Config.beginRound w.state whole stack)
      (fun other => StmtAt known depth base chain stack (other, env))
      (UnwindsFlow known depth base stack)
      (Cells.round (Cells.evaluate fuel depth env) (Cells.execute fuel depth env)
        (Cells.loop fuel depth env whole) whole w.store) := by
  have isBound := bound.condition
  rw [Config.beginRound, Cells.round]
  cases hasCondition : whole.condition with
  | none => exact loopBody_simulates followsBody follows followsLoop moved stands bound
  | some condition =>
      rw [hasCondition] at isBound
      dsimp only [Cells.goesOn]
      rw [Run.bind_assoc]
      refine .value_then_flow moved (fun _ _ => rfl) (follows.ready stands.toStands isBound) ?_
      intro later value other movedLater movedAll alike
      have standsLater := stands.after movedLater
      refine .ahead (Config.sound_value rfl) ?_
      rw [Run.pure_bind, ← alike.similar.isTruthy_eq]
      change Simulates fuel (if value.isTruthy then _ else _) _ _ _
      cases value.isTruthy with
      | true => exact loopBody_simulates followsBody follows followsLoop movedAll standsLater bound
      | false => exact Simulates.stmt_arrives (n := fuel) movedAll .normal standsLater

theorem followsLoops_succ (followsBody : FollowsStatements fuel) (follows : FollowsExpressions fuel)
    (followsLoop : FollowsLoops fuel) : FollowsLoops (fuel + 1) := by
  intro known depth base w chain env whole stack focus moved stands bound sound next
  rw [Cells.loop]
  refine .step sound ?_
  rw [next]
  exact round_simulates followsBody follows followsLoop moved stands bound

/-! ## Expressions and printing -/

theorem execute_expression_simulates (follows : FollowsExpressions fuel)
    (stands : StandsOpen known depth w chain env) {value : Expr} (bound : value.Bound known chain none) :
    Simulates (fuel + 1) ⟨w.state, .execute (.expression value) stack⟩
      (StmtAt known depth w chain stack) (UnwindsFlow known depth w stack)
      (Cells.execute (fuel + 1) depth env (.expression value) w.store) := by
  rw [Cells.execute]
  refine .step Config.sound_execute ?_
  refine .value_then_flow (.refl stands.agree) (fun _ _ => rfl) (follows.ready stands.toStands bound) ?_
  intro later result other moved movedOpen _
  refine .ahead (Config.sound_value rfl) ?_
  exact Simulates.stmt_arrives (n := fuel) movedOpen .normal (stands.after moved)

/-- A line is printed on both sides, or the sink does not take all of it. -/
theorem printLine_simulates {line : Nat} {pending : List Expr} {value other : Value}
    {next : Unit → Run (Flow × Env)} (moved : Moved known depth true base w)
    (alike : Alike known w value other)
    (go : ∀ later, Moved known depth false w later →
      Simulates n (Config.printNext later.state line pending stack) (StmtAt known depth base chain stack)
        (UnwindsFlow known depth base stack) (next () later.store)) :
    Simulates n (Config.print w.state line value pending stack) (StmtAt known depth base chain stack)
      (UnwindsFlow known depth base stack) ((Cells.printLine line other >>= next) w.store) := by
  change Simulates n _ _ _ (Run.andThen _ _ _)
  rw [Config.print, State.writeLine, moved.agree.sink, alike.similar.render_eq, Run.andThen, Cells.printLine]
  rcases w.store.sink.writeLine other.render with ⟨sink, complete⟩
  have movedLater := Moved.print moved.agree sink
  cases complete with
  | true => exact go _ movedLater
  | false => exact Simulates.flow_fails (n := n) (moved.trans movedLater.opened)

theorem printNext_simulates (follows : FollowsExpressions fuel) {line : Nat} {pending : List Expr}
    (moved : Moved known depth true base w) (stands : StandsOpen known depth w chain env)
    (bound : Expr.AllBound known chain none pending) :
    Simulates fuel (Config.printNext w.state line pending stack) (StmtAt known depth base chain stack)
      (UnwindsFlow known depth base stack)
      ((do
        Cells.printAll (Cells.evaluate fuel depth env) line pending
        return (.normal, env) : Run (Flow × Env)) w.store) := by
  induction pending generalizing w with
  | nil => exact Simulates.stmt_arrives (n := fuel) moved .normal stands
  | cons first rest inductionHypothesis =>
      rw [Config.printNext, Cells.printAll, Run.bind_assoc]
      refine .value_then_flow moved (fun _ _ => rfl) (follows.ready stands.toStands bound.1) ?_
      intro middle value other movedMiddle movedAll alike
      refine .ahead (Config.sound_value rfl) ?_
      rw [Run.bind_assoc]
      refine printLine_simulates movedAll alike ?_
      intro later movedLater
      have standsLater := (stands.after movedMiddle).after movedLater
      exact inductionHypothesis (movedAll.trans movedLater.opened) standsLater bound.2

/-! ## Declarations -/

/-- A declared name gets its value, on both sides, and the statement has ended. -/
theorem define_simulates {name : String} {notReady : Option String} {value other : Value}
    (moved : Moved known depth true base w)
    (represents : Represents w chain notReady w.state.scope env) (exact : Exact w w.state.scope chain)
    (here : chain ≠ [] → Resolution.distance? chain name = some 0)
    (only : ∀ wanted, notReady = some wanted → wanted = name)
    (alike : ∀ later, Grows w later → Represents later chain none w.state.scope env →
      Alike known later value other) :
    Simulates n ⟨w.state.define name value, .flow .normal stack⟩ (StmtAt known depth base chain stack)
      (UnwindsFlow known depth base stack)
      ((do
        Cells.define env name other
        return (.normal, env) : Run (Flow × Env)) w.store) := by
  rcases define_alike moved.agree represents here only alike with
    ⟨later, sameState, gave, movedLater, ready⟩
  rw [Run.bind_of_done gave, ← sameState]
  have standsLater : StandsOpen known depth later chain env :=
    ⟨⟨movedLater.agree, ready⟩, movedLater.exact represents.exists_scope exact⟩
  exact Simulates.stmt_arrives (n := n) (moved.trans movedLater.opened) .normal standsLater

theorem execute_declare_simulates (follows : FollowsExpressions fuel)
    (stands : StandsOpen known depth w chain env) {target : Identifier} {initializer : Option Expr}
    (bound : (Stmt.declare target initializer).Bound known chain) :
    Simulates (fuel + 1) ⟨w.state, .execute (.declare target initializer) stack⟩
      (StmtAt known depth w (extended target.name chain) stack) (UnwindsFlow known depth w stack)
      (Cells.execute (fuel + 1) depth env (.declare target initializer) w.store) := by
  rcases bound with ⟨fresh, boundValue⟩
  rcases declare_alike stands.agree stands.represents stands.exact fresh with
    ⟨declared, newEnv, sameState, made, moved, represents, exact⟩
  rw [Cells.execute]
  refine .step Config.sound_execute ?_
  change Simulates fuel (Config.execute w.state (.declare target initializer) stack) _ _ _
  rw [Run.bind_of_done made, ← sameState]
  cases initializer with
  | none =>
      exact define_simulates moved represents exact Resolution.distance?_declared
        (fun _ => Resolution.eq_of_unready) fun _ _ _ => .plain rfl
  | some value =>
      have standsDeclared : Stands known depth declared (extended target.name chain)
          (unready target chain) newEnv := ⟨moved.agree, represents⟩
      refine .value_then_flow moved (fun _ _ => rfl) (follows standsDeclared boundValue ?_) ?_
      · intro name waiting
        exact beq_iff_eq.mpr (Resolution.eq_of_unready waiting).symm
      · intro later result other movedLater movedAll alike
        refine .ahead (Config.sound_value rfl) ?_
        have representsLater := (standsDeclared.after movedLater).represents
        exact define_simulates movedAll representsLater
          (movedLater.exact represents.exists_scope exact) Resolution.distance?_declared
          (fun _ => Resolution.eq_of_unready) fun _ grows _ => grows.alike alike

/-- A function is bound in the scope that it remembers, so it finds itself there. -/
theorem Alike.of_close {name : String} {parameters : List Identifier} {body : List Stmt}
    {scope : ScopeId} (identity : w.state.identity = w.store.identity)
    (closes : Closes known chain parameters body) (grows : Grows (w.close env) later)
    (ready : Represents later chain none scope env) :
    Alike known later (.function w.state.identity (.closure ⟨name, parameters, body, scope⟩))
      (.function w.store.identity
        (.closure ⟨name, parameters, body, w.store.captured.size⟩)) := by
  have captured : (w.close env).store.captured[w.store.captured.size]? = some env :=
    Array.getElem?_push_size
  rw [identity]
  exact .closure (grows.captured _ env captured) ready closes

theorem execute_function_simulates (stands : StandsOpen known depth w chain env) {target : Identifier}
    {parameters : List Identifier} {body : List Stmt}
    (bound : (Stmt.function target parameters body).Bound known chain) :
    Simulates (fuel + 1) ⟨w.state, .execute (.function target parameters body) stack⟩
      (StmtAt known depth w (extended target.name chain) stack) (UnwindsFlow known depth w stack)
      (Cells.execute (fuel + 1) depth env (.function target parameters body) w.store) := by
  rcases bound with ⟨fresh, closes⟩
  rcases declare_alike stands.agree stands.represents stands.exact fresh with
    ⟨declared, newEnv, sameState, made, moved, represents, exact⟩
  have movedClosed : Moved known depth false declared (declared.close newEnv) :=
    .close moved.agree newEnv
  rw [Cells.execute]
  refine .step Config.sound_execute ?_
  change Simulates fuel (Config.execute w.state (.function target parameters body) stack) _ _ _
  rw [Run.bind_of_done made, ← sameState]
  exact define_simulates (moved.trans movedClosed.opened) (movedClosed.grows.represents represents)
    (movedClosed.exact represents.exists_scope exact) Resolution.distance?_declared
    (fun _ => Resolution.eq_of_unready) fun _ grows ready =>
      Alike.of_close moved.agree.identity closes grows ready

/-! ## Scopes of their own -/

/-- A piece that has ended in a scope of its own, in whatever way, gives the scope around it back. -/
theorem Moved.leaveScope {isOpen : Bool} {scope : ScopeId}
    (moved : Moved known depth true (w.enterScope scope) later) :
    Moved known depth isOpen w (later.leaveScope w.state.scope) :=
  .left (.enter w scope) rfl rfl rfl moved (moved.agree.leaveScope _) (.leaveScope _ _) rfl rfl rfl

/-- What is followed in a scope of its own is a statement of the scope around it. -/
theorem leaveScope_simulates {config : Config} {inside : Run Flow}
    (stands : StandsOpen known depth w chain env)
    (simulates : Simulates n config
      (FlowAt known depth (w.enterScope w.state.scope) (.leaveScope w.state.scope stack))
      (UnwindsFlow known depth (w.enterScope w.state.scope) (.leaveScope w.state.scope stack))
      (inside w.store)) :
    Simulates n config (StmtAt known depth w chain stack) (UnwindsFlow known depth w stack)
      ((do
        let flow ← inside
        return (flow, env) : Run (Flow × Env)) w.store) := by
  refine simulates.bind ?_ ?_
  · rintro otherFlow store config ⟨later, flow, same, sameStore, moved, alike⟩
    subst same sameStore
    have left : Moved known depth false w (later.leaveScope w.state.scope) := moved.leaveScope
    refine .ahead Config.sound_flow ?_
    exact Simulates.stmt_arrives (n := n) left.opened (alike.grow (.leaveScope _ _)) (stands.after left)
  · rintro error store config ⟨later, same, sameStore, moved⟩
    subst same sameStore
    exact ⟨_, .step Config.sound_unwindFlow (.refl _), later.leaveScope w.state.scope, rfl, rfl,
      moved.leaveScope⟩

theorem execute_block_simulates (follows : FollowsStatements fuel)
    (stands : StandsOpen known depth w chain env) {body : List Stmt}
    (bound : (Stmt.block body).Bound known chain) :
    Simulates (fuel + 1) ⟨w.state, .execute (.block body) stack⟩
      (StmtAt known depth w chain stack) (UnwindsFlow known depth w stack)
      (Cells.execute (fuel + 1) depth env (.block body) w.store) := by
  rw [Cells.execute]
  refine .step Config.sound_execute ?_
  refine leaveScope_simulates stands ?_
  have inside := StandsOpen.inside stands.agree stands.represents
  exact executeAll_simulates follows (.refl inside.agree) inside bound

/-! ## Branches, loops and returns -/

/-- What declares nothing leaves the scopes of the analysis as they were. -/
theorem FollowsStatements.unextended (follows : FollowsStatements fuel) {s : Stmt}
    (stands : StandsOpen known depth w chain env) (bound : s.Bound known chain)
    (declaresNothing : s.declares = false) :
    Simulates fuel ⟨w.state, .execute s stack⟩ (StmtAt known depth w chain stack)
      (UnwindsFlow known depth w stack) (Cells.execute fuel depth env s w.store) := by
  have simulates : Simulates fuel ⟨w.state, .execute s stack⟩
      (StmtAt known depth w (s.extend chain) stack) (UnwindsFlow known depth w stack)
      (Cells.execute fuel depth env s w.store) := follows stands bound
  rw [Stmt.extend_eq declaresNothing] at simulates
  exact simulates

theorem execute_branch_simulates (follows : FollowsExpressions fuel)
    (followsBody : FollowsStatements fuel) (stands : StandsOpen known depth w chain env)
    {condition : Expr} {whenTrue : Stmt} {whenFalse : Option Stmt}
    (bound : (Stmt.branch condition whenTrue whenFalse).Bound known chain) :
    Simulates (fuel + 1) ⟨w.state, .execute (.branch condition whenTrue whenFalse) stack⟩
      (StmtAt known depth w chain stack) (UnwindsFlow known depth w stack)
      (Cells.execute (fuel + 1) depth env (.branch condition whenTrue whenFalse) w.store) := by
  rcases bound with ⟨boundCondition, ⟨boundTrue, nothing⟩, boundFalse⟩
  rw [Cells.execute.eq_def]
  dsimp only
  refine .step Config.sound_execute ?_
  refine .value_then_flow (.refl stands.agree) (fun _ _ => rfl)
    (follows.ready stands.toStands boundCondition) ?_
  intro later value other moved movedOpen alike
  have standsLater := stands.after moved
  refine .ahead (Config.sound_value rfl) ?_
  change Simulates fuel (Config.chooseBranch later.state value whenTrue whenFalse stack) _ _ _
  rw [Config.chooseBranch.eq_def, ← alike.similar.isTruthy_eq]
  cases value.isTruthy with
  | true => exact .rebase_stmt movedOpen (followsBody.unextended standsLater boundTrue nothing)
  | false =>
      cases whenFalse with
      | none => exact Simulates.stmt_arrives (n := fuel) movedOpen .normal standsLater
      | some whenFalse =>
          exact .rebase_stmt movedOpen
            (followsBody.unextended standsLater boundFalse.1 boundFalse.2)

theorem execute_while_simulates (follows : FollowsExpressions fuel)
    (followsBody : FollowsStatements fuel) (followsLoop : FollowsLoops fuel)
    (stands : StandsOpen known depth w chain env) {condition : Expr} {body : Stmt}
    (bound : (Stmt.whileLoop condition body).Bound known chain) :
    Simulates (fuel + 1) ⟨w.state, .execute (.whileLoop condition body) stack⟩
      (StmtAt known depth w chain stack) (UnwindsFlow known depth w stack)
      (Cells.execute (fuel + 1) depth env (.whileLoop condition body) w.store) := by
  rcases bound with ⟨boundCondition, boundBody, nothing⟩
  have boundLoop : Loop.Bound known chain ⟨some condition, none, body⟩ :=
    ⟨boundCondition, trivial, boundBody, nothing⟩
  rw [Cells.execute]
  refine .step Config.sound_execute ?_
  refine (round_simulates followsBody follows followsLoop (.refl stands.agree) stands
    boundLoop).bind ?_ ?_
  · exact fun other store config arrived => ⟨config, .refl _, arrived⟩
  · exact fun error store config failed => ⟨config, .refl _, failed⟩

theorem execute_for_simulates (follows : FollowsExpressions fuel)
    (followsBody : FollowsStatements fuel) (followsLoop : FollowsLoops fuel)
    (stands : StandsOpen known depth w chain env) {first : Option Stmt}
    {condition increment : Option Expr} {body : Stmt}
    (bound : (Stmt.forLoop first condition increment body).Bound known chain) :
    Simulates (fuel + 1) ⟨w.state, .execute (.forLoop first condition increment body) stack⟩
      (StmtAt known depth w chain stack) (UnwindsFlow known depth w stack)
      (Cells.execute (fuel + 1) depth env (.forLoop first condition increment body) w.store) := by
  rcases bound with ⟨boundFirst, boundCondition, boundIncrement, boundBody, nothing⟩
  have boundLoop : Loop.Bound known (Stmt.extend? ([] :: chain) first) ⟨condition, increment, body⟩ :=
    ⟨boundCondition, boundIncrement, boundBody, nothing⟩
  have inside := StandsOpen.inside stands.agree stands.represents
  have entered : Moved known depth true (w.enterScope w.state.scope) (w.enterScope w.state.scope) :=
    .refl inside.agree
  rw [Cells.execute]
  refine .step Config.sound_execute ?_
  rw [← Run.bind_assoc]
  refine leaveScope_simulates stands ?_
  cases first with
  | none =>
      refine (round_simulates followsBody follows followsLoop entered inside boundLoop).imp ?_
        fun _ _ _ => id
      exact fun _ _ _ => StmtAt.flowAt
  | some first =>
      dsimp only [Cells.openLoop]
      rw [Run.bind_assoc]
      -- Both worlds have one store, and the run starts in the scope of the loop, not in the one around it.
      refine Simulates.stmt_then (w := w.enterScope w.state.scope) entered (fun _ _ => rfl)
        (followsBody inside boundFirst) ?_
      intro later flow result moved _ _ standsLater
      refine .ahead Config.sound_flow ?_
      refine (round_simulates followsBody follows followsLoop moved standsLater boundLoop).imp ?_
        fun _ _ _ => id
      exact fun _ _ _ => StmtAt.flowAt

theorem execute_giveBack_simulates (follows : FollowsExpressions fuel)
    (stands : StandsOpen known depth w chain env) {line : Nat} {value : Option Expr}
    (bound : Expr.Bound? known chain none value) :
    Simulates (fuel + 1) ⟨w.state, .execute (.giveBack line value) stack⟩
      (StmtAt known depth w chain stack) (UnwindsFlow known depth w stack)
      (Cells.execute (fuel + 1) depth env (.giveBack line value) w.store) := by
  rw [Cells.execute]
  refine .step Config.sound_execute ?_
  cases value with
  | none =>
      exact Simulates.stmt_arrives (n := fuel) (.refl stands.agree) (.returned (.plain rfl)) stands
  | some value =>
      refine .value_then_flow (.refl stands.agree) (fun _ _ => rfl)
        (follows.ready stands.toStands bound) ?_
      intro later result other moved movedOpen alike
      refine .ahead (Config.sound_value rfl) ?_
      exact Simulates.stmt_arrives (n := fuel) movedOpen (.returned alike) (stands.after moved)

/-! ## Every statement -/

theorem followsStatements_succ (follows : FollowsExpressions fuel)
    (followsBody : FollowsStatements fuel) (followsLoop : FollowsLoops fuel) :
    FollowsStatements (fuel + 1) := by
  intro known depth w chain env s stack stands bound
  match s, bound with
  | .expression _, bound => exact execute_expression_simulates follows stands bound
  | .print _ _, bound =>
      rw [Cells.execute]
      refine .step Config.sound_execute ?_
      exact printNext_simulates follows (.refl stands.agree) stands bound
  | .declare _ _, bound => exact execute_declare_simulates follows stands bound
  | .block _, bound => exact execute_block_simulates followsBody stands bound
  | .branch _ _ _, bound => exact execute_branch_simulates follows followsBody stands bound
  | .whileLoop _ _, bound =>
      exact execute_while_simulates follows followsBody followsLoop stands bound
  | .forLoop _ _ _ _, bound =>
      exact execute_for_simulates follows followsBody followsLoop stands bound
  | .function _ _ _, bound => exact execute_function_simulates stands bound
  | .giveBack _ _, bound => exact execute_giveBack_simulates follows stands bound

end

/-- With any fuel the machine follows the evaluator through every program. -/
theorem follows (fuel : Nat) :
    FollowsExpressions fuel ∧ FollowsStatements fuel ∧ FollowsLoops fuel := by
  induction fuel with
  | zero =>
      refine ⟨?_, ?_, ?_⟩
      · intro known depth w chain unready env e stack stands bound _
        rw [Cells.evaluate_zero]
        exact .spent rfl (stands.sound_evaluate bound) stands.agree.sink
      · intro known depth w chain env s stack stands _
        rw [Cells.execute_zero]
        exact .spent rfl Config.sound_execute stands.agree.sink
      · intro known depth base w chain env whole stack focus _ stands _ sound next
        rw [Cells.loop_zero]
        exact .spent (Config.isDone_of_step_beginRound next) sound stands.agree.sink
  | succ fuel inductionHypothesis =>
      rcases inductionHypothesis with ⟨expressions, statements, loops⟩
      exact ⟨followsExpressions_succ expressions statements,
        followsStatements_succ expressions statements loops,
        followsLoops_succ statements expressions loops⟩

end ScopedScript
