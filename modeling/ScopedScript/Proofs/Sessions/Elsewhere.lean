import ScopedScript.Proofs.Machine.Surroundings
import ScopedScript.Proofs.Sessions.Lives
namespace ScopedScript

/-!
# Sessions in other surroundings

Reading a unit has nothing to do with the host and the sink, and when a unit is over, only one question is asked
about them: whether the sink can be flushed.
-/

theorem State.flushed_transferred (state : State) {other : Surroundings} (ending : Ending Flow)
    (sameFlush : (other.sink state.sink).flushFails = state.sink.flushFails) :
    (state.transferred other).flushed ending = state.flushed ending := by
  cases ending with
  | done flow =>
      change (if (other.sink state.sink).flushFails then _ else _) = _
      rw [sameFlush]
      rfl
  | failed | unfinished => rfl

namespace Session

/-- The same session in other surroundings. -/
def transferred (session : Session) (other : Surroundings) : Session :=
  ⟨session.state.transferred other, session.next⟩

variable {session after : Session} {source : String} {program : List Stmt}

theorem accept_transferred (accepted : session.accept source = (after, .ok program)) (other : Surroundings) :
    (session.transferred other).accept source = (after.transferred other, .ok program) := by
  rcases accept_ok_iff.mp accepted with ⟨next, references, read, resolved, rfl⟩
  exact accept_ok_iff.mpr ⟨next, references, read, resolved, rfl⟩

theorem conclude_transferred (session : Session) (config : Config) {other : Surroundings}
    (sameFlush : (other.sink config.state.sink).flushFails = config.state.sink.flushFails) :
    session.conclude (config.transferred other) =
      ((session.conclude config).1.transferred other, (session.conclude config).2) :=
  Prod.ext rfl (congrArg UnitResult.ofEnding (config.state.flushed_transferred config.flowEnding sameFlush))

end Session

end ScopedScript
