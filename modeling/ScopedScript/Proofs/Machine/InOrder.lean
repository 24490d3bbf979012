import ScopedScript.Proofs.Machine.Programs
namespace ScopedScript

/-!
# Statements in order

A program does what its statements do on their own, each from the state that the one before has left, up to
the last one or to the first that fails.
-/

namespace State

/-- Statements are executed on their own, one after another, until one fails. -/
inductive InOrder : State → List Stmt → State → Ending Flow → Prop where
  | nil (state : State) : InOrder state [] state (.done .normal)
  | cons {state middle last : State} {first : Stmt} {rest : List Stmt} {ending : Ending Flow} (fuel : Nat)
      (completes : state.execute fuel first = (middle, .done .normal))
      (others : InOrder middle rest last ending) : InOrder state (first :: rest) last ending
  | fails {state last : State} {first : Stmt} {rest : List Stmt} {failure : Failure} (fuel : Nat)
      (failed : state.execute fuel first = (last, .failed failure)) :
      InOrder state (first :: rest) last (.failed failure)

theorem execute_eq (state : State) (fuel : Nat) (s : Stmt) :
    state.execute fuel s = ((Config.step^[fuel] ⟨state, .execute s .bottom⟩).state,
      (Config.step^[fuel] ⟨state, .execute s .bottom⟩).flowEnding) := by
  unfold execute
  rw [Config.run_eq_iterate]

theorem interpret_eq (state : State) (fuel : Nat) (program : List Stmt) :
    state.interpret fuel program = ((Config.step^[fuel] (state.launch program)).state,
      (Config.step^[fuel] (state.launch program)).state.flushed
        (Config.step^[fuel] (state.launch program)).flowEnding) := by
  unfold interpret
  rw [Config.run_eq_iterate]

end State

namespace Config

theorem flowEnding_eq_done {config : Config} {flow : Flow} (ended : config.flowEnding = .done flow) :
    config.focus = .flow flow .bottom := by
  rcases config with ⟨state, focus⟩
  cases focus with
  | flow flow below =>
      cases below <;> cases ended
      rfl
  | unwindFlow failure below => cases below <;> cases ended
  | _ => cases ended

theorem flowEnding_eq_failed {config : Config} {failure : Failure}
    (ended : config.flowEnding = .failed failure) : config.focus = .unwindFlow failure .bottom := by
  rcases config with ⟨state, focus⟩
  cases focus with
  | flow flow below => cases below <;> cases ended
  | unwindFlow failure below =>
      cases below <;> cases ended
      rfl
  | _ => cases ended

theorem isDone_of_flowEnding {config : Config} (ended : config.flowEnding ≠ .unfinished) :
    config.isDone = true := by
  by_contra running
  exact ended (flowEnding_of_running (eq_false_of_ne_true running))

end Config

namespace State

variable {state last : State} {program : List Stmt} {ending : Ending Flow}

/-- What the statements do in order, the program does. -/
theorem InOrder.launch (inOrder : state.InOrder program last ending) :
    ∃ n, (Config.step^[n] (state.launch program)).state = last ∧
      (Config.step^[n] (state.launch program)).flowEnding = ending := by
  induction inOrder with
  | nil state => exact ⟨1, rfl, rfl⟩
  | @cons state middle last first rest ending fuel completes others inductionHypothesis =>
      rw [execute_eq, Prod.mk.injEq] at completes
      have normal := Config.flowEnding_eq_done completes.2
      have done := Config.isDone_of_flowEnding (by rw [completes.2]; nofun)
      rcases Config.launch_cons done with ⟨soon, -, follows⟩
      rcases inductionHypothesis with ⟨n, reaches⟩
      refine ⟨n + (soon + 2), ?_⟩
      rw [Function.iterate_add_apply, follows rest, Config.followedBy_of_normal normal, completes.1]
      exact reaches
  | @fails state last first rest failure fuel failed =>
      rw [execute_eq, Prod.mk.injEq] at failed
      have stops := Config.flowEnding_eq_failed failed.2
      have done := Config.isDone_of_flowEnding (by rw [failed.2]; nofun)
      rcases Config.launch_cons done with ⟨soon, -, follows⟩
      refine ⟨soon + 2, ?_⟩
      rw [follows rest, Config.followedBy, stops]
      exact failed

/-- What a program does when no `return` leaves it, its statements do in order. -/
theorem inOrder_of_launch {n : Nat}
    (ended : (Config.step^[n] (state.launch program)).flowEnding ≠ .unfinished)
    (noReturn : ∀ result, (Config.step^[n] (state.launch program)).flowEnding ≠ .done (.returned result)) :
    state.InOrder program (Config.step^[n] (state.launch program)).state
      (Config.step^[n] (state.launch program)).flowEnding := by
  induction program generalizing state n with
  | nil =>
      cases n with
      | zero => exact absurd rfl ended
      | succ n =>
          have done : Config.step^[n + 1] (state.launch []) = ⟨state, .flow .normal .bottom⟩ :=
            Config.iterate_step_of_isDone rfl n
          rw [done]
          exact .nil state
  | cons first rest inductionHypothesis =>
      rcases Config.done_of_launch_cons (Config.isDone_of_flowEnding ended) with ⟨soon, more, done, ends⟩
      rw [ends] at ended noReturn ⊢
      have alone := state.execute_eq soon first
      by_cases normal : (Config.step^[soon] ⟨state, .execute first .bottom⟩).focus = .flow .normal .bottom
      · rw [Config.followedBy_of_normal normal] at ended noReturn ⊢
        rw [Config.flowEnding, normal] at alone
        exact .cons soon alone (inductionHypothesis ended noReturn)
      · rw [Config.followedBy_of_not_normal normal, Config.iterate_step_of_isDone done] at ended noReturn ⊢
        cases ending : (Config.step^[soon] ⟨state, .execute first .bottom⟩).flowEnding with
        | done flow =>
            cases flow with
            | normal => exact absurd (Config.flowEnding_eq_done ending) normal
            | returned result => exact absurd ending (noReturn result)
        | failed failure =>
            rw [ending] at alone
            exact .fails soon alone
        | unfinished => exact absurd ending ended

end State

end ScopedScript
