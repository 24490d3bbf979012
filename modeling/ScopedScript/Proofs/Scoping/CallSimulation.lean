import ScopedScript.Proofs.Scoping.ExpressionSimulation
namespace ScopedScript

/-!
# Calls, followed

A call evaluates the callee and the arguments, and runs the body of a function in a scope of its own
inside the one that the function remembers.  That scope represents the scopes in which the analysis saw
the declaration, however long ago that was and whatever has happened since, which is why the body finds
its variables.
-/

open Cells (Env Store Run)
open Config (Reaches)
open Resolution (ScopeChain extended extendedAll AllFresh)

/-- With so much fuel the machine follows the evaluator through every statement. -/
def FollowsStatements (fuel : Nat) : Prop :=
  ∀ {known : Known} {depth : Nat} {w : World} {chain : ScopeChain} {env : Env} {s : Stmt}
    {stack : FlowStack}, StandsOpen known depth w chain env → s.Bound known chain →
    Simulates fuel ⟨w.state, .execute s stack⟩ (StmtAt known depth w (s.extend chain) stack)
      (UnwindsFlow known depth w stack) (Cells.execute fuel depth env s w.store)

section

variable {known : Known} {depth fuel n line : Nat} {base w : World} {chain : ScopeChain}
  {unready : Option String} {env : Env} {stack : ValueStack} {callee : Value}

/-! ## Arguments -/

/-- The arguments have been evaluated, and the next step is the call. -/
def CallAt (known : Known) (depth : Nat) (w : World) (line : Nat) (callee : Value) (done : List Value)
    (stack : ValueStack) (others : List Value) (store : Store) (config : Config) : Prop :=
  ∃ later values, config.Sound ∧
    config.step = Config.call later.state line callee (done.reverse ++ values) stack ∧
    later.store = store ∧ Moved known depth false w later ∧
    List.Forall₂ (Alike known later) values others

theorem evaluateAll_simulates (follows : FollowsExpressions fuel) {es : List Expr}
    {done : List Value} {config : Config} (stands : Stands known depth w chain unready env)
    (bound : Expr.AllBound known chain unready es)
    (waiting : ∀ name, unready = some name → stack.isInitializing name) (sound : config.Sound)
    (next : config.step = Config.evaluateArguments w.state line callee done es stack) :
    Simulates fuel config (CallAt known depth w line callee done stack)
      (UnwindsValue known depth w stack)
      (Cells.evaluateAll (Cells.evaluate fuel depth env) es w.store) := by
  induction es generalizing w done config with
  | nil =>
      refine ⟨config, .refl _, w, [], sound, ?_, rfl, .refl stands.agree, .nil⟩
      rw [next, List.append_nil]
      rfl
  | cons first rest inductionHypothesis =>
      refine .ahead sound ?_
      rw [next]
      refine .value_then (.refl stands.agree) (fun _ _ => rfl) (follows stands bound.1 waiting) ?_
      intro middle value other moved _ alike
      have soundMiddle : Config.Sound
          ⟨middle.state, .value value (.argument line callee done rest stack)⟩ :=
        Config.sound_value rfl
      refine (inductionHypothesis (stands.after moved) bound.2 soundMiddle rfl).bind ?_ ?_
      · rintro others store config ⟨later, values, soundLater, nextLater, sameStore, movedLater, alikeRest⟩
        refine ⟨config, .refl _, later, value :: values, soundLater, ?_, sameStore,
          moved.trans movedLater, .cons (movedLater.grows.alike alike) alikeRest⟩
        rw [nextLater, List.reverse_cons, List.append_assoc]
        rfl
      · rintro error store config ⟨later, same, sameStore, movedLater⟩
        exact ⟨config, .refl _, later, same, sameStore, moved.trans movedLater⟩

/-! ## Statements in order -/

theorem executeAll_simulates (follows : FollowsStatements fuel) {ss : List Stmt} {stack : FlowStack}
    (moved : Moved known depth true base w) (stands : StandsOpen known depth w chain env)
    (bound : Stmt.AllBound known chain ss) :
    Simulates fuel ⟨w.state, .executeAll ss stack⟩ (FlowAt known depth base stack)
      (UnwindsFlow known depth base stack)
      (Cells.executeAll (Cells.execute fuel depth) env ss w.store) := by
  induction ss generalizing w chain env with
  | nil =>
      refine .ahead Config.sound_executeAll ?_
      exact Simulates.flow_arrives moved .normal
  | cons first rest inductionHypothesis =>
      refine .ahead Config.sound_executeAll ?_
      refine .stmt_then moved (fun _ _ => rfl) (follows stands bound.1) ?_
      rintro later flow ⟨otherFlow, newEnv⟩ _ movedLater alike standsLater
      refine .ahead Config.sound_flow ?_
      cases alike with
      | normal => exact inductionHypothesis movedLater standsLater bound.2
      | returned alike => exact Simulates.flow_arrives movedLater (.returned alike)

/-! ## Parameters -/

theorem bindParameters_alike {parameters : List Identifier} {arguments others : List Value}
    (stands : StandsOpen known depth w chain env) (notTop : chain ≠ [])
    (fresh : AllFresh parameters chain) (alike : List.Forall₂ (Alike known w) arguments others)
    (fits : arguments.length = parameters.length) :
    ∃ later newEnv, later.state = w.state.bindParameters parameters arguments ∧
      Cells.bindParameters parameters others env w.store = (.done newEnv, later.store) ∧
      Moved known depth true w later ∧
      StandsOpen known depth later (extendedAll parameters chain) newEnv := by
  induction parameters generalizing w chain env arguments others with
  | nil =>
      cases alike with
      | nil => exact ⟨w, env, rfl, rfl, .refl stands.agree, stands⟩
      | cons _ _ => cases fits
  | cons parameter rest inductionHypothesis =>
      cases alike with
      | nil => cases fits
      | @cons argument other moreArguments moreOthers first more =>
          rcases declare_alike stands.agree stands.represents stands.exact fresh.1 with
            ⟨declared, declaredEnv, sameState, made, movedDeclared, represents, exact⟩
          rcases define_alike movedDeclared.agree represents Resolution.distance?_declared
            (fun _ => Resolution.eq_of_unready)
            (fun _ grows _ => (movedDeclared.grows.trans grows).alike first) with
            ⟨bound, sameBound, gave, movedBound, ready⟩
          have moved := movedDeclared.trans (movedBound.opened)
          have standsBound : StandsOpen known depth bound (extended parameter.name chain) declaredEnv :=
            ⟨⟨movedBound.agree, ready⟩, movedBound.exact represents.exists_scope exact⟩
          rcases inductionHypothesis standsBound (Resolution.extendedAll_ne_nil [parameter] notTop) fresh.2
            (more.imp fun _ _ => moved.grows.alike) (Nat.succ.inj fits) with
            ⟨later, newEnv, sameLater, rest, movedLater, standsLater⟩
          refine ⟨later, newEnv, ?_, ?_, moved.trans movedLater, standsLater⟩
          · rw [sameLater, sameBound, sameState]
            rfl
          · rw [Cells.bindParameters]
            rw [Run.bind_of_done made, Run.bind_of_done gave]
            exact rest

/-! ## Calls -/

theorem isAtCallLimit_eq (agree : Agree known depth w) :
    w.state.isAtCallLimit = Cells.atLimit w.store.host depth := by
  rw [State.isAtCallLimit, agree.host, agree.depth]
  rfl

/-- A body that has ended, in whatever way, gives the caller its scope and its depth back. -/
theorem Moved.called {later : World} {scope : ScopeId}
    (moved : Moved known (depth + 1) true (w.deeper.enterScope scope) later) :
    Moved known depth false w (later.leaveCall w.state.scope) := by
  exact .left (.trans (.deeper w) (.enter _ scope)) rfl rfl rfl moved (moved.agree.leaveCall _)
    (.leaveCall _ _) rfl rfl rfl

theorem call_closure_simulates (follows : FollowsStatements fuel) {name : String}
    {parameters : List Identifier} {body : List Stmt} {scope : ScopeId} {index : Nat}
    {arguments others : List Value} (moved : Moved known depth false base w)
    (captured : w.store.captured[index]? = some env) (represents : Represents w chain none scope env)
    (closes : Closes known chain parameters body)
    (alike : List.Forall₂ (Alike known w) arguments others)
    (fits : arguments.length = parameters.length) :
    Simulates fuel
      ⟨w.state.enterCall ⟨name, parameters, body, scope⟩ arguments,
        .executeAll body (.leaveCall w.state.scope stack)⟩
      (ValueAt known depth base stack) (UnwindsValue known depth base stack)
      ((do
        let env ← Cells.capturedBy ⟨name, parameters, body, index⟩
        let env ← Cells.bindParameters parameters others env.enter
        let flow ← Cells.executeAll (Cells.execute fuel (depth + 1)) env body
        return flow.result : Run Value) w.store) := by
  have deeper : Grows w w.deeper := .deeper w
  have entered := deeper.trans (.enter _ scope)
  have stands := StandsOpen.inside moved.agree.deeper (deeper.represents represents)
  rcases bindParameters_alike stands (List.cons_ne_nil _ _) closes.1
    (alike.imp fun _ _ => entered.alike) fits with
    ⟨bound, newEnv, sameState, gave, movedBound, standsBound⟩
  change Cells.bindParameters parameters others env.enter w.store = _ at gave
  have found : Cells.capturedBy ⟨name, parameters, body, index⟩ w.store = (.done env, w.store) := by
    rw [Cells.capturedBy, Array.getD_eq_getD_getElem?, captured]
    rfl
  rw [Run.bind_of_done found, Run.bind_of_done gave]
  change Simulates fuel ⟨(w.deeper.enterScope scope).state.bindParameters parameters arguments, _⟩ _ _ _
  rw [← sameState]
  refine (executeAll_simulates follows movedBound standsBound closes.2).bind ?_ ?_
  · rintro otherFlow store config ⟨later, flow, same, sameStore, movedLater, alikeFlow⟩
    subst same sameStore
    refine .ahead Config.sound_flow ?_
    have alikeResult := (alikeFlow.grow (.leaveCall later w.state.scope)).result
    exact Simulates.value_arrives (moved.trans movedLater.called) alikeResult
  · rintro error store config ⟨later, same, sameStore, movedLater⟩
    subst same sameStore
    exact ⟨_, .step Config.sound_unwindFlow (.refl _), later.leaveCall w.state.scope, rfl, rfl,
      moved.trans movedLater.called⟩

/-- A call of alike values with alike arguments does the same on both sides. -/
theorem call_simulates (follows : FollowsStatements fuel) {other : Value}
    {arguments others : List Value} (moved : Moved known depth false base w)
    (alikeCallee : Alike known w callee other) (alike : List.Forall₂ (Alike known w) arguments others) :
    Simulates fuel (Config.call w.state line callee arguments stack) (ValueAt known depth base stack)
      (UnwindsValue known depth base stack)
      (Cells.call (Cells.execute fuel (depth + 1)) depth line other others w.store) := by
  have limit := isAtCallLimit_eq moved.agree
  have sameLength := alike.length_eq
  cases alikeCallee with
  | plain notClosure =>
      match callee, notClosure with
      | .number _, _ => exact Simulates.value_fails moved
      | .text _, _ => exact Simulates.value_fails moved
      | .truth _, _ => exact Simulates.value_fails moved
      | .nil, _ => exact Simulates.value_fails moved
      | .function identity (.builtin builtin), _ =>
          rw [Config.call, Cells.call, limit, sameLength, moved.agree.host]
          split
          · exact Simulates.value_fails moved
          · split
            · exact Simulates.value_fails moved
            · have ticked := moved.trans (.tick moved.agree)
              have alikeLater := alike.imp fun _ _ => (Grows.tick w).alike
              rcases builtin.apply_similar (fun _ _ => Alike.similar) (fun _ => .plain) w.store.host.reading alikeLater
                with ⟨message, applied, appliedToo⟩ | ⟨result, same, applied, appliedToo, alikeResult⟩
              · rw [applied, appliedToo]
                exact Simulates.value_fails ticked
              · rw [applied, appliedToo]
                exact Simulates.value_arrives ticked alikeResult
  | @closure identity name parameters body scope index chain env captured represents closes =>
      have arity : (Callable.closure ⟨name, parameters, body, scope⟩).arity = parameters.length := rfl
      have arityToo : (Callable.closure ⟨name, parameters, body, index⟩).arity = parameters.length := rfl
      rw [Config.call, Cells.call, limit, sameLength, arity, arityToo]
      by_cases fits : others.length = parameters.length
      · rw [if_neg (not_not.mpr fits), if_neg (not_not.mpr fits)]
        split
        · exact Simulates.value_fails moved
        · exact call_closure_simulates follows moved captured represents closes alike
            (sameLength.trans fits)
      · rw [if_pos fits, if_pos fits]
        exact Simulates.value_fails moved

theorem evaluate_call_simulates (follows : FollowsExpressions fuel)
    (followsBody : FollowsStatements fuel) (stands : Stands known depth w chain unready env)
    {callee : Expr} {arguments : List Expr} (boundCallee : callee.Bound known chain unready)
    (boundArguments : Expr.AllBound known chain unready arguments)
    (waiting : ∀ name, unready = some name → stack.isInitializing name) :
    Simulates (fuel + 1) ⟨w.state, .evaluate (.call callee line arguments) stack⟩
      (ValueAt known depth w stack) (UnwindsValue known depth w stack)
      (Cells.evaluate (fuel + 1) depth env (.call callee line arguments) w.store) := by
  rw [Cells.evaluate]
  refine .step (Config.sound_evaluate rfl) ?_
  refine .value_then (.refl stands.agree) (fun _ _ => rfl) (follows stands boundCallee waiting) ?_
  intro middle value other moved _ alike
  have soundMiddle : Config.Sound ⟨middle.state, .value value (.callee line arguments stack)⟩ :=
    Config.sound_value rfl
  refine (evaluateAll_simulates follows (stands.after moved) boundArguments waiting soundMiddle rfl).bind
    ?_ ?_
  · rintro others store config ⟨later, values, sound, next, sameStore, movedLater, alikeAll⟩
    subst sameStore
    refine .ahead sound ?_
    rw [next]
    exact call_simulates followsBody (moved.trans movedLater) (movedLater.grows.alike alike) alikeAll
  · rintro error store config ⟨later, same, sameStore, movedLater⟩
    exact ⟨config, .refl _, later, same, sameStore, moved.trans movedLater⟩

/-- More fuel for statements and expressions follows deeper expressions. -/
theorem followsExpressions_succ (follows : FollowsExpressions fuel)
    (followsBody : FollowsStatements fuel) : FollowsExpressions (fuel + 1) := by
  intro known depth w chain unready env e stack stands bound waiting
  match e, bound with
  | .constant value, _ =>
      refine .step (Config.sound_evaluate rfl) ?_
      have notClosure : (Value.ofConstant value).isClosure = false := by
        cases value <;> rfl
      exact Simulates.value_arrives (.refl stands.agree) (.plain notClosure)
  | .group inner, bound =>
      refine .step (Config.sound_evaluate rfl) ?_
      exact follows stands bound waiting
  | .unary _ _ _, bound => exact evaluate_unary_simulates follows stands bound waiting
  | .binary _ _ _ _, ⟨left, right⟩ =>
      exact evaluate_binary_simulates follows stands left right waiting
  | .logical _ _ _, ⟨left, right⟩ =>
      exact evaluate_logical_simulates follows stands left right waiting
  | .variable _ _, bound => exact evaluate_variable_simulates stands bound
  | .assign _ _ _, ⟨value, isKnown⟩ =>
      exact evaluate_assign_simulates follows stands value isKnown waiting
  | .call _ _ _, ⟨callee, arguments⟩ =>
      exact evaluate_call_simulates follows followsBody stands callee arguments waiting

end

end ScopedScript
