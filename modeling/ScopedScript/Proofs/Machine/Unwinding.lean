import ScopedScript.Proofs.Machine.Locations
namespace ScopedScript

/-!
# A failure on its way

A failure that nothing stops goes down to the bottom of the stack.  On the way it only leaves scopes and
calls; what is on the heap and in the sink stays there.
-/

/-- The same state at another location. -/
def State.movedTo (state : State) (here : Location) : State :=
  { state with scope := here.scope, depth := here.depth }

/-- Whether a focus is a failure on its way. -/
def Focus.Unwinds (failure : Failure) : Focus → Prop
  | .unwindValue another _ | .unwindFlow another _ => another = failure
  | _ => False

namespace Config

variable {config : Config} {here : Location} {failure : Failure}

/-- A failure takes what waits off the trail, and nothing changes but the location. -/
theorem step_of_unwinds (here : Location) (unwinds : config.focus.Unwinds failure)
    (more : 1 < config.trail.length) :
    config.step.trail = config.trail.tail ∧ config.step.focus.Unwinds failure ∧
      config.step.state.movedTo here = config.state.movedTo here := by
  rcases config with ⟨state, focus⟩
  cases focus with
  | unwindValue another stack =>
      cases stack with
      | bottom => exact absurd more (Nat.lt_irrefl 1)
      | _ => exact ⟨rfl, unwinds, rfl⟩
  | unwindFlow another below =>
      cases below with
      | bottom => exact absurd more (Nat.lt_irrefl 1)
      | _ => exact ⟨rfl, unwinds, rfl⟩
  | _ => cases unwinds

/-- A failure gets to the bottom, where it has changed the location at most. -/
theorem unwinds_to_bottom (unwinds : config.focus.Unwinds failure)
    (bottom : (Waiting.flow .bottom).trail here <:+ config.trail) :
    ∃ n, step^[n] config = ⟨config.state.movedTo here, .unwindFlow failure .bottom⟩ := by
  rcases bottom with ⟨above, whole⟩
  induction above generalizing config with
  | nil =>
      rcases config.focus.waiting.head_trail config.state.location with ⟨others, first⟩
      have head := List.cons.inj (whole.trans first)
      rcases config with ⟨state, focus⟩
      rcases Prod.mk.inj head.1 with ⟨atBottom, rfl⟩
      cases focus with
      | unwindFlow another below =>
          cases atBottom
          cases unwinds
          exact ⟨0, rfl⟩
      | unwindValue another stack => cases atBottom
      | _ => cases unwinds
  | cons entry above inductionHypothesis =>
      have more : 1 < config.trail.length := by
        rw [← whole, List.length_append]
        exact Nat.lt_add_left_iff_pos.mpr (Nat.succ_pos _)
      rcases step_of_unwinds here unwinds more with ⟨trail, unwindsToo, same⟩
      rcases inductionHypothesis unwindsToo (by rw [trail, ← whole]; rfl) with ⟨n, reaches⟩
      rw [same] at reaches
      exact ⟨n + 1, reaches⟩

/-- A step that fails is the last one but for the way to the bottom. -/
theorem fails_to_bottom (unwinds : config.step.focus.Unwinds failure)
    (bottom : (Waiting.flow .bottom).trail here <:+ config.trail) (running : ¬ config.HasEnded (.flow .bottom)) :
    ∃ n, step^[n] config = ⟨config.step.state.movedTo here, .unwindFlow failure .bottom⟩ := by
  rcases unwinds_to_bottom unwinds (trail_step bottom running) with ⟨n, reaches⟩
  exact ⟨n + 1, reaches⟩

end Config

end ScopedScript
