import ScopedScript.Proofs.Grammar.ProgramSoundness
import ScopedScript.Proofs.Machine.SessionRuns
import ScopedScript.Proofs.Scoping.CellSession
import ScopedScript.Proofs.Scoping.Recording
import ScopedScript.Proofs.Scoping.Resolved
import ScopedScript.Proofs.Scoping.StatementSimulation
namespace ScopedScript

/-!
# Unit after unit, followed

`Session.Matches` relates a session of the machine to one of the evaluator between two units.  The
analysis of a unit adds to the recorded distances without touching what was recorded before, so functions
of earlier units stay bound; running the unit then is one simulation from the top level, and whether the
unit finishes or fails the two sessions match again.
-/

open Cells (Store)
open Resolution (ScopeChain)

section Knowing

variable {known more : Known} {depth : Nat} {w later : World} {value other : Value}

/-- What is alike stays alike when more references are known. -/
theorem Alike.mono (knowsMore : ∀ ref distance, known ref distance → more ref distance)
    (grows : Grows w later) (alike : Alike known w value other) : Alike more later value other := by
  cases grows.alike alike with
  | plain notClosure => exact .plain notClosure
  | closure captured represents closes =>
      exact .closure captured represents ⟨closes.1, Stmt.AllBound.mono knowsMore closes.2⟩

/-- The distances of a unit are recorded. -/
theorem Agree.record (agree : Agree known depth w) {distances : Distances}
    (knowsMore : ∀ ref distance, known ref distance → more ref distance)
    (recorded : ∀ ref distance, more ref distance → distances.find? ref = distance) :
    Agree more depth { w with state := { w.state with distances } } where
  host := agree.host
  sink := agree.sink
  identity := agree.identity
  depth := agree.depth
  distances := recorded
  globals := by
    intro name
    have grows : Grows w { w with state := { w.state with distances } } :=
      .of_heap_eq rfl rfl fun _ _ => id
    have globals := agree.globals name
    change Option.Rel _ (w.state.heap.lookup? globalScope name) (w.store.globals.find? name)
    generalize w.state.heap.lookup? globalScope name = value at globals ⊢
    generalize w.store.globals.find? name = other at globals ⊢
    cases globals with
    | none => exact .none
    | some alike => exact .some (alike.mono knowsMore grows)
  contents := by
    intro scope name cell value placed found
    have grows : Grows w { w with state := { w.state with distances } } :=
      .of_heap_eq rfl rfl fun _ _ => id
    rcases agree.contents scope name cell value placed found with ⟨other, held, alike⟩
    exact ⟨other, held, alike.mono knowsMore grows⟩
  laidOut := agree.laidOut
  apart := agree.apart
  covered := agree.covered

end Knowing

/-! ## Between two units -/

/-- A session of the machine and one of the evaluator have come to the same point. -/
structure Session.Matches (session : Session) (reference : Cells.Session) : Prop where
  next : session.next = reference.next
  blank : session.state.distances.BlankFrom session.next
  scope : session.state.scope = globalScope
  exists_global : globalScope < session.state.heap.nextId
  agree : ∃ layout, Agree (session.state.distances.knownBelow session.next) 0
    ⟨session.state, layout, reference.store⟩

namespace Session.Matches

variable {session after : Session} {reference : Cells.Session} {source : String} {program : List Stmt}
  {fuel : Nat}

theorem sink (matched : session.Matches reference) :
    session.state.sink = reference.store.sink := by
  rcases matched.agree with ⟨layout, agree⟩
  exact agree.sink

/-- Between two units both sides stand at the top level. -/
theorem stands (matched : session.Matches reference) :
    ∃ w : World, w.state = session.state ∧ w.store = reference.store ∧
      StandsOpen (session.state.distances.knownBelow session.next) 0 w [] .topLevel := by
  rcases matched.agree with ⟨layout, agree⟩
  refine ⟨⟨session.state, layout, reference.store⟩, rfl, rfl, ⟨⟨agree, ?_⟩, trivial⟩⟩
  refine ⟨?_, fun _ => ⟨matched.scope, rfl⟩, fun notTop => absurd rfl notTop, fun _ _ => rfl, nofun⟩
  change session.state.scope < session.state.heap.nextId
  rw [matched.scope]
  exact matched.exists_global

/-- Identities have been handed out, and perhaps recorded. -/
theorem advance (matched : session.Matches reference) {distances : Distances} {next : RefId}
    (knowsMore : ∀ ref distance, session.state.distances.knownBelow session.next ref distance →
      distances.knownBelow next ref distance)
    (blank : distances.BlankFrom next) :
    Session.Matches ⟨{ session.state with distances }, next⟩ ⟨reference.store, next⟩ := by
  rcases matched.agree with ⟨layout, agree⟩
  refine ⟨rfl, blank, matched.scope, matched.exists_global, layout, ?_⟩
  exact agree.record knowsMore fun _ _ isKnown => isKnown.2

/-- What a run leaves behind, in whatever way it has ended. -/
theorem afterRun (matched : session.Matches reference) {w later : World} (same : w.state = session.state)
    (moved : Moved (session.state.distances.knownBelow session.next) 0 true w later) :
    Session.Matches ⟨later.state, session.next⟩ ⟨later.store, session.next⟩ := by
  have distances : later.state.distances = session.state.distances := by
    rw [moved.distances, same]
  refine ⟨rfl, ?_, ?_, ?_, later.layout, ?_⟩
  · rw [distances]
    exact matched.blank
  · rw [moved.scope, same]
    exact matched.scope
  · refine Nat.lt_of_lt_of_le ?_ moved.grows.scopes
    rw [same]
    exact matched.exists_global
  · rw [distances]
    exact moved.agree

/-- The top level gets a builtin. -/
theorem builtin {state : State} {store : Store} {next : RefId}
    (matched : Session.Matches ⟨state, next⟩ ⟨store, next⟩) (builtin : Builtin) :
    Session.Matches ⟨state.defineFunction builtin.name (.builtin builtin), next⟩
      ⟨store.defineBuiltin builtin, next⟩ := by
  rcases matched.agree with ⟨layout, agree⟩
  have alike : Alike (state.distances.knownBelow next)
      { state := state.define builtin.name (.function state.identity (.builtin builtin)), layout,
        store := { store with
          globals := store.globals.insert builtin.name (.function store.identity (.builtin builtin)) } }
      (.function state.identity (.builtin builtin)) (.function store.identity (.builtin builtin)) := by
    rw [show state.identity = store.identity from agree.identity]
    exact .plain rfl
  have moved : Moved (state.distances.knownBelow next) 0 false ⟨state, layout, store⟩ _ :=
    .setGlobal agree matched.exists_global matched.scope builtin.name alike
  refine ⟨rfl, matched.blank, matched.scope, ?_, layout, ?_⟩
  · exact Nat.lt_of_lt_of_le matched.exists_global moved.grows.scopes
  · refine moved.agree.carry (.of_heap_eq rfl rfl fun _ _ => id) rfl rfl rfl rfl rfl agree.host agree.sink
      ?_ agree.depth
    exact congrArg (· + 1) agree.identity

end Session.Matches

/-- Sessions in which nothing has run match. -/
theorem Session.matches_start (host : Host) (sink : Sink) (builtins : List Builtin) :
    (Session.start host sink builtins).Matches (Cells.Session.start host sink builtins) := by
  have fresh : Session.Matches
      ⟨{ host, sink, heap := Heap.empty.create none, scope := globalScope }, 0⟩
      ⟨{ host, sink }, 0⟩ := by
    refine ⟨rfl, fun _ _ => rfl, rfl, ?_, fun _ _ => none, ?_⟩
    · exact Nat.lt_succ_self 0
    · refine ⟨rfl, rfl, rfl, rfl, fun _ _ isKnown => isKnown.2, ?_, nofun, nofun, nofun, ?_⟩
      · intro name
        exact .none
      · intro scope name _ bound
        change ((Heap.empty.create none).lookup? scope name).isSome at bound
        rw [Heap.lookup?_create] at bound
        cases bound
  unfold Session.start Cells.Session.start State.initial
  generalize ({ host, sink, heap := Heap.empty.create none, scope := globalScope } : State) = state at *
  generalize ({ host, sink } : Store) = store at *
  induction builtins generalizing state store with
  | nil => exact fresh
  | cons first rest inductionHypothesis => exact inductionHypothesis _ _ (fresh.builtin first)

/-! ## One unit -/

/-- A program that has been read is well formed, and its references have identities of their own. -/
theorem readProgram_ok {source : String} {next after : RefId} {program : List Stmt}
    (read : readProgram source next = .ok (program, after)) :
    Ascending next (Stmt.refsOf program) after ∧ Stmt.AllWellFormed program := by
  unfold readProgram at read
  split at read
  · cases read
  · split at read
    · cases read
    · rename_i result parsed
      cases read
      exact ⟨refs_of_parse parsed, (Rule.parse_passage parsed).2⟩

namespace Session.Matches

variable {session after : Session} {reference : Cells.Session} {source : String} {program : List Stmt}
  {fuel : Nat}

/-- The distances of a program are recorded whose references have identities of their own. -/
theorem recorded (matched : session.Matches reference) {references : List Reference} {next : RefId}
    (wellFormed : Stmt.AllWellFormed program) (distinct : (Stmt.refsOf program).Nodup)
    (bounds : ∀ ref ∈ Stmt.refsOf program, session.next ≤ ref ∧ ref < next) (later : session.next ≤ next)
    (resolved : resolve program = .ok references) :
    Session.Matches ⟨{ session.state with distances := session.state.distances.recordAll references }, next⟩
      ⟨reference.store, next⟩ ∧
    Stmt.AllBound ((session.state.distances.recordAll references).knownBelow next) [] program := by
  rcases resolve_ok wellFormed resolved with ⟨listed, bound⟩
  rw [← listed] at distinct bounds
  rcases Distances.recordAll_known distinct bounds later matched.blank with ⟨all, knowsMore, blank⟩
  exact ⟨matched.advance knowsMore blank, bound _ all⟩

/-- A unit is rejected on both sides, or accepted and then bound. -/
theorem accept_follows (matched : session.Matches reference) (source : String) :
    (∃ error after afterToo, session.accept source = (after, .error error) ∧ after.Matches afterToo ∧
      ∀ fuel, reference.run fuel source = (afterToo, .rejected error)) ∨
    (∃ program after, session.accept source = (after, .ok program) ∧
      after.Matches ⟨reference.store, after.next⟩ ∧
      Stmt.AllBound (after.state.distances.knownBelow after.next) [] program ∧
      ∀ fuel, reference.run fuel source =
        Cells.Session.conclude after.next
          (Cells.executeAll (Cells.execute fuel 0) .topLevel program reference.store)) := by
  unfold Session.accept Session.read Cells.Session.run
  rw [← matched.next]
  cases read : readProgram source session.next with
  | error error => exact .inl ⟨error, session, reference, rfl, matched, fun _ => rfl⟩
  | ok result =>
      rcases result with ⟨program, next⟩
      rcases readProgram_ok read with ⟨rising, wellFormed⟩
      dsimp only
      unfold Session.analyse
      cases resolved : resolve program with
      | error error =>
          refine .inl ⟨.scope error, _, _, rfl, ?_, fun _ => rfl⟩
          refine matched.advance ?_ ?_
          · exact fun ref distance isKnown => ⟨Nat.lt_of_lt_of_le isKnown.1 rising.le, isKnown.2⟩
          · exact fun ref beyond => matched.blank ref (Nat.le_trans rising.le beyond)
      | ok references =>
          rcases matched.recorded wellFormed rising.nodup (fun _ => rising.bounds) rising.le resolved with
            ⟨matchedAfter, bound⟩
          exact .inr ⟨program, _, rfl, matchedAfter, bound, fun _ => rfl⟩

/-- The machine follows the evaluator through an accepted unit. -/
theorem launch_simulates (matched : session.Matches reference)
    (bound : Stmt.AllBound (session.state.distances.knownBelow session.next) [] program) (fuel : Nat) :
    Simulates fuel (session.state.launch program)
      (fun _ store config => ∃ state flow, config = ⟨state, .flow flow .bottom⟩ ∧
        Matches ⟨state, session.next⟩ ⟨store, session.next⟩)
      (fun error store config => ∃ state, config = ⟨state, .unwindFlow (.runtime error) .bottom⟩ ∧
        Matches ⟨state, session.next⟩ ⟨store, session.next⟩)
      (Cells.executeAll (Cells.execute fuel 0) .topLevel program reference.store) := by
  rcases matched.stands with ⟨w, sameState, sameStore, stands⟩
  have simulates : Simulates fuel (w.state.launch program)
      (FlowAt (session.state.distances.knownBelow session.next) 0 w .bottom)
      (UnwindsFlow (session.state.distances.knownBelow session.next) 0 w .bottom)
      (Cells.executeAll (Cells.execute fuel 0) .topLevel program w.store) :=
    executeAll_simulates (follows fuel).2.1 (.refl stands.agree) stands bound
  rw [← sameState, ← sameStore]
  refine simulates.imp ?_ ?_
  · rintro _ store config ⟨later, flow, same, sameLater, moved, _⟩
    subst same sameLater
    exact ⟨later.state, flow, rfl, matched.afterRun sameState moved⟩
  · rintro error store config ⟨later, same, sameLater, moved⟩
    subst same sameLater
    exact ⟨later.state, rfl, matched.afterRun sameState moved⟩

/-- Wherever the machine gets to within an accepted unit, no recorded distance leads astray. -/
theorem launch_sound (matched : session.Matches reference)
    (bound : Stmt.AllBound (session.state.distances.knownBelow session.next) [] program) (n : Nat) :
    (Config.step^[n] (session.state.launch program)).Sound := by
  have simulates := matched.launch_simulates bound n
  rcases executed : Cells.executeAll (Cells.execute n 0) .topLevel program reference.store with
    ⟨outcome, store⟩
  rw [executed] at simulates
  cases outcome with
  | done result =>
      rcases simulates with ⟨config, reaches, state, flow, same, _⟩
      subst same
      exact reaches.sound_iterate rfl Config.sound_flow n
  | failed error =>
      rcases simulates with ⟨config, reaches, state, same, _⟩
      subst same
      exact reaches.sound_iterate rfl Config.sound_unwindFlow n
  | unfinished =>
      rcases simulates with ⟨m, least, _, _, sound⟩
      exact sound n least

/-- When the evaluator comes to the end of a program, the machine does so too, and the sessions match
again.  When the evaluator runs out of fuel, the machine is still running after as many steps, and has
printed the same at some such time. -/
theorem conclude_follows (matched : session.Matches reference)
    (bound : Stmt.AllBound (session.state.distances.knownBelow session.next) [] program) (fuel : Nat)
    {concluded : Cells.Session × UnitResult}
    (runs : Cells.Session.conclude session.next
      (Cells.executeAll (Cells.execute fuel 0) .topLevel program reference.store) = concluded) :
    (∃ n after, after.Matches concluded.1 ∧ concluded.2 ≠ .unfinished ∧
      ∀ m, n ≤ m → session.conclude (Config.step^[m] (session.state.launch program)) = (after, concluded.2)) ∨
    (concluded.2 = .unfinished ∧
      ∃ m, fuel ≤ m ∧
        (session.conclude (Config.step^[m] (session.state.launch program))).2 = .unfinished ∧
        (session.conclude (Config.step^[m] (session.state.launch program))).1.state.sink =
          concluded.1.store.sink) := by
  subst runs
  have simulates := matched.launch_simulates bound fuel
  rcases executed : Cells.executeAll (Cells.execute fuel 0) .topLevel program reference.store with
    ⟨outcome, store⟩
  rw [executed] at simulates
  cases outcome with
  | done result =>
      rcases simulates with ⟨config, ⟨n, arrives, _⟩, state, flow, same, matchedLater⟩
      subst same
      refine .inl ⟨n, ⟨state, session.next⟩, matchedLater, ?_, ?_⟩
      · change store.concluded (.done result) ≠ .unfinished
        rw [Store.concluded]
        split <;> nofun
      · intro m later
        have finished : (Config.step^[n] (session.state.launch program)).isDone := by
          rw [arrives]
          rfl
        rw [Config.iterate_step_eq_of_le finished later, arrives]
        change (_, UnitResult.ofEnding (state.flushed (.done flow))) =
          (_, store.concluded (.done result))
        rw [State.flushed, Store.concluded, ← matchedLater.sink]
        cases state.sink.flushFails <;> rfl
  | failed error =>
      rcases simulates with ⟨config, ⟨n, arrives, _⟩, state, same, matchedLater⟩
      subst same
      refine .inl ⟨n, ⟨state, session.next⟩, matchedLater, nofun, ?_⟩
      intro m later
      have finished : (Config.step^[n] (session.state.launch program)).isDone := by
        rw [arrives]
        rfl
      rw [Config.iterate_step_eq_of_le finished later, arrives]
      rfl
  | unfinished =>
      rcases simulates with ⟨m, least, running, printed, _⟩
      exact .inr ⟨rfl, m, least, Session.conclude_of_running running, printed⟩

/-- The same for a unit, which may also be rejected on both sides. -/
theorem run_follows (matched : session.Matches reference) (fuel : Nat) (source : String) :
    (∃ n after, after.Matches (reference.run fuel source).1 ∧
      (reference.run fuel source).2 ≠ .unfinished ∧
      ∀ m, n ≤ m → session.run m source = (after, (reference.run fuel source).2)) ∨
    ((reference.run fuel source).2 = .unfinished ∧
      ∃ m, fuel ≤ m ∧ (session.run m source).2 = .unfinished ∧
        (session.run m source).1.state.sink = (reference.run fuel source).1.store.sink) := by
  rcases matched.accept_follows source with
    ⟨error, after, afterToo, refused, matchedAfter, refusedToo⟩ |
    ⟨program, after, accepted, matchedAfter, bound, runs⟩
  · rw [refusedToo fuel]
    exact .inl ⟨0, after, matchedAfter, nofun, fun m _ => Session.run_of_rejected refused m⟩
  · simp only [Session.run_of_accepted accepted]
    exact matchedAfter.conclude_follows bound fuel (runs fuel).symm

end Session.Matches

end ScopedScript
