import ScopedScript.Proofs.Scoping.AlikeValues
import ScopedScript.Proofs.Scoping.Simulation
import ScopedScript.Proofs.Scoping.Variables
namespace ScopedScript

/-!
# Where a simulated piece arrives

An expression arrives with a value on top of the stack that waited for it, or unwinds that stack; a
statement arrives with a flow.  In each case the world has `Moved` from the one in which some larger piece
began, so that the pieces of the larger piece can be put together.
-/

open Cells (Env Outcome Store Run)
open Config (Reaches)
open Resolution (ScopeChain)

/-- How statements end on both sides. -/
inductive FlowAlike (known : Known) (w : World) : Flow → Flow → Prop where
  | normal : FlowAlike known w .normal .normal
  | returned {value other : Value} (alike : Alike known w value other) :
      FlowAlike known w (.returned value) (.returned other)

namespace FlowAlike

variable {known : Known} {w later : World} {flow other : Flow}

theorem grow (alike : FlowAlike known w flow other) (grows : Grows w later) :
    FlowAlike known later flow other := by
  cases alike with
  | normal => exact .normal
  | returned alike => exact .returned (grows.alike alike)

theorem result (alike : FlowAlike known w flow other) : Alike known w flow.result other.result := by
  cases alike with
  | normal => exact .plain rfl
  | returned alike => exact alike

end FlowAlike

/-- A value has been handed to the stack. -/
def ValueAt (known : Known) (depth : Nat) (w : World) (stack : ValueStack) (other : Value)
    (store : Store) (config : Config) : Prop :=
  ∃ later value, config = ⟨later.state, .value value stack⟩ ∧ later.store = store ∧
    Moved known depth false w later ∧ Alike known later value other

/-- A failure is on its way through a stack that waits for a value. -/
def UnwindsValue (known : Known) (depth : Nat) (w : World) (stack : ValueStack) (error : RuntimeError)
    (store : Store) (config : Config) : Prop :=
  ∃ later, config = ⟨later.state, .unwindValue (.runtime error) stack⟩ ∧ later.store = store ∧
    Moved known depth false w later

/-- A piece has ended in some way, and nothing is said about the names that it has declared. -/
def FlowAt (known : Known) (depth : Nat) (w : World) (stack : FlowStack) (otherFlow : Flow)
    (store : Store) (config : Config) : Prop :=
  ∃ later flow, config = ⟨later.state, .flow flow stack⟩ ∧ later.store = store ∧
    Moved known depth true w later ∧ FlowAlike known later flow otherFlow

/-- The machine and the evaluator stand at the same place of a program. -/
structure Stands (known : Known) (depth : Nat) (w : World) (chain : ScopeChain)
    (unready : Option String) (env : Env) : Prop where
  agree : Agree known depth w
  represents : Represents w chain unready w.state.scope env

/-- The same where statements stand, which may declare names. -/
structure StandsOpen (known : Known) (depth : Nat) (w : World) (chain : ScopeChain) (env : Env) : Prop
    extends Stands known depth w chain none env where
  exact : Exact w w.state.scope chain

/-- A statement has ended in some way, and what follows it stands inside the given scopes. -/
def StmtAt (known : Known) (depth : Nat) (w : World) (chain : ScopeChain) (stack : FlowStack)
    (result : Flow × Env) (store : Store) (config : Config) : Prop :=
  ∃ later flow, config = ⟨later.state, .flow flow stack⟩ ∧ later.store = store ∧
    Moved known depth true w later ∧ FlowAlike known later flow result.1 ∧
    StandsOpen known depth later chain result.2

/-- A failure is on its way through a stack that waits for the end of a statement. -/
def UnwindsFlow (known : Known) (depth : Nat) (w : World) (stack : FlowStack) (error : RuntimeError)
    (store : Store) (config : Config) : Prop :=
  ∃ later, config = ⟨later.state, .unwindFlow (.runtime error) stack⟩ ∧ later.store = store ∧
    Moved known depth true w later

section

variable {known : Known} {depth n : Nat} {base w later : World} {chain : ScopeChain}
  {unready : Option String} {env : Env} {config : Config}

/-- Where only the flow counts, the scopes that a statement leaves behind are forgotten. -/
theorem StmtAt.flowAt {stack : FlowStack} {other : Flow} {store : Store}
    (arrived : StmtAt known depth w chain stack (other, env) store config) :
    FlowAt known depth w stack other store config := by
  rcases arrived with ⟨later, flow, same, sameStore, moved, alike, _⟩
  exact ⟨later, flow, same, sameStore, moved, alike⟩

namespace Stands

theorem after (stands : Stands known depth w chain unready env) (moved : Moved known depth false w later) :
    Stands known depth later chain unready env := by
  refine ⟨moved.agree, ?_⟩
  rw [moved.scope]
  exact moved.grows.represents stands.represents

end Stands

namespace StandsOpen

/-- A scope of its own begins without names. -/
theorem inside {scope : ScopeId} (agree : Agree known depth w)
    (represents : Represents w chain none scope env) :
    StandsOpen known depth (w.enterScope scope) ([] :: chain) env.enter :=
  ⟨⟨agree.enter scope, represents.enter⟩, Exact.enter agree scope chain⟩

theorem after (stands : StandsOpen known depth w chain env) (moved : Moved known depth false w later) :
    StandsOpen known depth later chain env :=
  ⟨stands.toStands.after moved, moved.exact stands.represents.exists_scope stands.exact⟩

end StandsOpen

/-! ## One piece after another -/

namespace Simulates

variable {α β : Type} {Arrives : β → Store → Config → Prop} {first : Run α} {next : α → Run β}
  {valueFrame valueStack : ValueStack} {flowFrame flowStack : FlowStack}

/-- A value is computed for something that waits for it in the middle of an expression. -/
theorem value_then {first : Run Value} {next : Value → Run β} (moved : Moved known depth false base w)
    (pass : ∀ state failure, Config.step ⟨state, .unwindValue failure valueFrame⟩ =
      ⟨state, .unwindValue failure valueStack⟩)
    (simulates : Simulates n config (ValueAt known depth w valueFrame)
      (UnwindsValue known depth w valueFrame) (first w.store))
    (go : ∀ later value other, Moved known depth false w later → Moved known depth false base later →
      Alike known later value other →
      Simulates n ⟨later.state, .value value valueFrame⟩ Arrives
        (UnwindsValue known depth base valueStack) (next other later.store)) :
    Simulates n config Arrives (UnwindsValue known depth base valueStack) ((first >>= next) w.store) := by
  refine simulates.bind ?_ ?_
  · rintro other store config ⟨later, value, same, sameStore, movedLater, alike⟩
    subst same sameStore
    exact go later value other movedLater (moved.trans movedLater) alike
  · rintro error store config ⟨later, same, sameStore, movedLater⟩
    subst same sameStore
    refine ⟨_, .step Config.sound_unwindValue (.refl _), later, pass _ _, rfl, moved.trans movedLater⟩

/-- A value is computed for a statement. -/
theorem value_then_flow {first : Run Value} {next : Value → Run β}
    (moved : Moved known depth true base w)
    (pass : ∀ state failure, Config.step ⟨state, .unwindValue failure valueFrame⟩ =
      ⟨state, .unwindFlow failure flowStack⟩)
    (simulates : Simulates n config (ValueAt known depth w valueFrame)
      (UnwindsValue known depth w valueFrame) (first w.store))
    (go : ∀ later value other, Moved known depth false w later → Moved known depth true base later →
      Alike known later value other →
      Simulates n ⟨later.state, .value value valueFrame⟩ Arrives
        (UnwindsFlow known depth base flowStack) (next other later.store)) :
    Simulates n config Arrives (UnwindsFlow known depth base flowStack) ((first >>= next) w.store) := by
  refine simulates.bind ?_ ?_
  · rintro other store config ⟨later, value, same, sameStore, movedLater, alike⟩
    subst same sameStore
    exact go later value other movedLater (moved.trans movedLater.opened) alike
  · rintro error store config ⟨later, same, sameStore, movedLater⟩
    subst same sameStore
    refine ⟨_, .step Config.sound_unwindValue (.refl _), later, pass _ _, rfl,
      moved.trans movedLater.opened⟩

/-- A statement is executed before other parts of a statement. -/
theorem stmt_then {first : Run (Flow × Env)} {next : Flow × Env → Run β}
    (moved : Moved known depth true base w)
    (pass : ∀ state failure, Config.step ⟨state, .unwindFlow failure flowFrame⟩ =
      ⟨state, .unwindFlow failure flowStack⟩)
    (simulates : Simulates n config (StmtAt known depth w chain flowFrame)
      (UnwindsFlow known depth w flowFrame) (first w.store))
    (go : ∀ later flow result, Moved known depth true w later → Moved known depth true base later →
      FlowAlike known later flow result.1 → StandsOpen known depth later chain result.2 →
      Simulates n ⟨later.state, .flow flow flowFrame⟩ Arrives
        (UnwindsFlow known depth base flowStack) (next result later.store)) :
    Simulates n config Arrives (UnwindsFlow known depth base flowStack) ((first >>= next) w.store) := by
  refine simulates.bind ?_ ?_
  · rintro result store config ⟨later, flow, same, sameStore, movedLater, alike, stands⟩
    subst same sameStore
    exact go later flow result movedLater (moved.trans movedLater) alike stands
  · rintro error store config ⟨later, same, sameStore, movedLater⟩
    subst same sameStore
    refine ⟨_, .step Config.sound_unwindFlow (.refl _), later, pass _ _, rfl, moved.trans movedLater⟩

/-! ## Pieces within larger ones -/

theorem rebase_value {first : Outcome Value × Store} (moved : Moved known depth false base w)
    (simulates : Simulates n config (ValueAt known depth w valueStack)
      (UnwindsValue known depth w valueStack) first) :
    Simulates n config (ValueAt known depth base valueStack)
      (UnwindsValue known depth base valueStack) first := by
  refine simulates.imp ?_ ?_
  · rintro result store config ⟨later, value, same, sameStore, movedLater, alike⟩
    exact ⟨later, value, same, sameStore, moved.trans movedLater, alike⟩
  · rintro error store config ⟨later, same, sameStore, movedLater⟩
    exact ⟨later, same, sameStore, moved.trans movedLater⟩

theorem rebase_stmt {first : Outcome (Flow × Env) × Store} (moved : Moved known depth true base w)
    (simulates : Simulates n config (StmtAt known depth w chain flowStack)
      (UnwindsFlow known depth w flowStack) first) :
    Simulates n config (StmtAt known depth base chain flowStack)
      (UnwindsFlow known depth base flowStack) first := by
  refine simulates.imp ?_ ?_
  · rintro result store config ⟨later, flow, same, sameStore, movedLater, alike, stands⟩
    exact ⟨later, flow, same, sameStore, moved.trans movedLater, alike, stands⟩
  · rintro error store config ⟨later, same, sameStore, movedLater⟩
    exact ⟨later, same, sameStore, moved.trans movedLater⟩

/-! ## Arriving -/

theorem value_arrives {stack : ValueStack} {value other : Value} (moved : Moved known depth false base w)
    (alike : Alike known w value other) :
    Simulates n ⟨w.state, .value value stack⟩ (ValueAt known depth base stack)
      (UnwindsValue known depth base stack) (Run.done other w.store) :=
  ⟨_, .refl _, w, value, rfl, rfl, moved, alike⟩

theorem value_fails {stack : ValueStack} {cause : RuntimeCause} {line : Nat}
    {Arrives : α → Store → Config → Prop} (moved : Moved known depth false base w) :
    Simulates n (Config.failValue w.state cause line stack) Arrives
      (UnwindsValue known depth base stack) (Run.fail cause line w.store) :=
  ⟨_, .refl _, w, rfl, rfl, moved⟩

theorem flow_fails {stack : FlowStack} {cause : RuntimeCause} {line : Nat}
    {Arrives : α → Store → Config → Prop} (moved : Moved known depth true base w) :
    Simulates n (Config.failFlow w.state cause line stack) Arrives
      (UnwindsFlow known depth base stack) (Run.fail cause line w.store) :=
  ⟨_, .refl _, w, rfl, rfl, moved⟩

theorem flow_arrives {stack : FlowStack} {flow other : Flow} (moved : Moved known depth true base w)
    (alike : FlowAlike known w flow other) :
    Simulates n ⟨w.state, .flow flow stack⟩ (FlowAt known depth base stack)
      (UnwindsFlow known depth base stack) (Run.done other w.store) :=
  ⟨_, .refl _, w, flow, rfl, rfl, moved, alike⟩

theorem stmt_arrives {stack : FlowStack} {flow other : Flow} (moved : Moved known depth true base w)
    (alike : FlowAlike known w flow other) (stands : StandsOpen known depth w chain env) :
    Simulates n ⟨w.state, .flow flow stack⟩ (StmtAt known depth base chain stack)
      (UnwindsFlow known depth base stack) (Run.done (other, env) w.store) :=
  ⟨_, .refl _, w, flow, rfl, rfl, moved, alike, stands⟩

end Simulates

end

end ScopedScript
