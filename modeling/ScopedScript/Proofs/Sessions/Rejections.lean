import Mathlib
import ScopedScript.Proofs.Relabeling.Units
import ScopedScript.Proofs.Sessions.Lives
namespace ScopedScript

/-!
# Units that are rejected leave no trace

A unit that is rejected before it runs leaves the state alone, but identities may be used up for it, so
everything that is read later has other ones.  Two sessions of which one has seen such units and the other
has not are `Twin`s: what one keeps is what the other keeps, up to a renaming of references under which
their tables agree.  Running the same text in both keeps them twins, whatever becomes of it.

The main statement is `Session.rejections_invisible`: in any sequence of units, those that are rejected can
be left out, and each of the others has the same result, output and global names.
-/

namespace Session

variable {session after : Session} {source : String} {program : List Stmt}

/-! ## Recorded sequences of units -/

/-- What is recorded of one unit. -/
structure Record where
  source : String
  result : UnitResult
  /-- The session when the unit was over. -/
  after : Session

/-- Whether the unit was run at all. -/
def Record.wasRun (record : Record) : Bool :=
  match record.result with
  | .rejected _ => false
  | _ => true

/-- Run one unit after another, and record what becomes of each.  In front of each unit, so many identities
may have been used up elsewhere, as by a text that the parser has given up half-way.  Nothing comes after a
unit that does not end. -/
def records (fuel : Nat) (session : Session) : List (Nat × String) → List Record
  | [] => []
  | (gap, source) :: rest =>
    let ran := (session.skip gap).run fuel source
    match ran.2 with
    | .unfinished => [⟨source, .unfinished, ran.1⟩]
    | result => ⟨source, result, ran.1⟩ :: ran.1.records fuel rest

/-- The same unit with the same outcome, up to the identities of references: those in function values, and
those in the table. -/
structure Record.Mirrors (clean full : Record) : Prop where
  source : full.source = clean.source
  result : full.result = clean.result
  output : full.after.state.sink = clean.after.state.sink
  alike : ∃ ref : RefId → RefId, StrictMono ref ∧
    (∀ name, full.after.state.heap.get? globalScope name =
      (clean.after.state.heap.get? globalScope name).map (Value.relabel (.ofRefs ref))) ∧
    full.after.state = clean.after.state.relabel (.ofRefs ref) full.after.state.distances ∧
    ∀ id < clean.after.next,
      full.after.state.distances.find? (ref id) = clean.after.state.distances.find? id

/-! ## Twins -/

/-- Two sessions keep the same, up to the identities of the references read so far. -/
structure Twin (ref : RefId → RefId) (clean full : Session) : Prop where
  rising : StrictMono ref
  later : clean.next ≤ full.next
  below : ∀ id < clean.next, ref id < full.next
  state : full.state = clean.state.relabel (.ofRefs ref) full.state.distances
  answers : ∀ id < clean.next, full.state.distances.find? (ref id) = clean.state.distances.find? id
  settled : ∃ trees, Settled trees clean
  settledFull : ∃ trees, Settled trees full

/-- The identities of everything read so far are renamed as before, and those to come are moved. -/
def extended (ref : RefId → RefId) (clean full : Session) (id : RefId) : RefId :=
  if id < clean.next then ref id else full.next - clean.next + id

namespace Twin

variable {ref : RefId → RefId} {clean full : Session}

/-- At the start nothing has been read, and one session is its own twin. -/
theorem start (host : Host) (sink : Sink) (builtins : List Builtin) :
    Twin id (start host sink builtins) (start host sink builtins) where
  rising := strictMono_id
  later := Nat.le_refl _
  below := fun _ below => below
  state := (State.relabel_same _).symm
  answers := fun _ _ => rfl
  settled := ⟨[], .start host sink builtins⟩
  settledFull := ⟨[], .start host sink builtins⟩

/-- Identities that are used up in one session only do not matter. -/
theorem advance (twin : Twin ref clean full) {next : RefId} (later : full.next ≤ next) :
    Twin ref clean ⟨full.state, next⟩ where
  rising := twin.rising
  later := Nat.le_trans twin.later later
  below := fun id below => Nat.lt_of_lt_of_le (twin.below id below) later
  state := twin.state
  answers := twin.answers
  settled := twin.settled
  settledFull := by
    rcases twin.settledFull with ⟨trees, settled⟩
    exact ⟨trees, settled.advance later⟩

theorem extended_of_lt {id : RefId} (below : id < clean.next) : extended ref clean full id = ref id :=
  if_pos below

theorem extended_of_le {id : RefId} (beyond : clean.next ≤ id) :
    extended ref clean full id = full.next - clean.next + id :=
  if_neg (Nat.not_lt.mpr beyond)

/-- An identity to come is moved to one that is to come in the other session. -/
theorem le_extended (twin : Twin ref clean full) {id : RefId} (beyond : clean.next ≤ id) :
    full.next ≤ extended ref clean full id := by
  rw [extended_of_le beyond]
  calc full.next = full.next - clean.next + clean.next := (Nat.sub_add_cancel twin.later).symm
    _ ≤ full.next - clean.next + id := Nat.add_le_add_left beyond _

/-- What has been read by then in one session has been read by then in the other. -/
theorem extended_below (twin : Twin ref clean full) {next : RefId} (later : clean.next ≤ next)
    {id : RefId} (below : id < next) : extended ref clean full id < full.next - clean.next + next := by
  by_cases earlier : id < clean.next
  · rw [extended_of_lt earlier]
    calc ref id < full.next := twin.below id earlier
      _ = full.next - clean.next + clean.next := (Nat.sub_add_cancel twin.later).symm
      _ ≤ full.next - clean.next + next := Nat.add_le_add_left later _
  · rw [extended_of_le (Nat.not_lt.mp earlier)]
    exact Nat.add_lt_add_left below _

theorem extended_rising (twin : Twin ref clean full) : StrictMono (extended ref clean full) := by
  intro id later before
  by_cases below : id < clean.next
  · rw [extended_of_lt below]
    by_cases laterBelow : later < clean.next
    · rw [extended_of_lt laterBelow]
      exact twin.rising before
    · exact Nat.lt_of_lt_of_le (twin.below id below) (twin.le_extended (Nat.not_lt.mp laterBelow))
  · have beyond : clean.next ≤ id := Nat.not_lt.mp below
    rw [extended_of_le beyond, extended_of_le (Nat.le_trans beyond (Nat.le_of_lt before))]
    exact Nat.add_lt_add_left before _

/-- The tables also agree about the identities to come, of which they both know nothing. -/
theorem extended_answers (twin : Twin ref clean full) (id : RefId) :
    full.state.distances.find? (extended ref clean full id) = clean.state.distances.find? id := by
  rcases twin.settled with ⟨_, settled⟩
  rcases twin.settledFull with ⟨_, settledFull⟩
  by_cases below : id < clean.next
  · rw [extended_of_lt below]
    exact twin.answers id below
  · have beyond : clean.next ≤ id := Nat.not_lt.mp below
    rw [settled.blank id beyond, settledFull.blank _ (twin.le_extended beyond)]

theorem extended_state (twin : Twin ref clean full) (d : Distances) :
    clean.state.relabel (.ofRefs ref) d = clean.state.relabel (.ofRefs (extended ref clean full)) d := by
  rcases twin.settled with ⟨_, settled⟩
  exact State.relabel_congr (settled.bounded.imp fun id below => (extended_of_lt below).symm) rfl

/-- What one of two twins reads as a program, the other reads under other identities. -/
theorem read (twin : Twin ref clean full) {next : RefId}
    (found : readProgram source full.next = .ok (program, next)) :
    ∃ programClean nextClean, readProgram source clean.next = .ok (programClean, nextClean) ∧
      program = Stmt.relabelAll (.ofRefs (extended ref clean full)) programClean ∧
      next = full.next - clean.next + nextClean := by
  rcases readProgram_anywhere found clean.next with ⟨programClean, nextClean, foundClean⟩
  have moved := readProgram_offset (full.next - clean.next) foundClean
  rw [Nat.sub_add_cancel twin.later, found] at moved
  cases moved
  refine ⟨programClean, nextClean, foundClean, ?_, rfl⟩
  refine Stmt.relabelAll_congr programClean ⟨fun id inside => ?_, rfl⟩
  have beyond := ((readProgram_ok foundClean).1.bounds inside).1
  exact (extended_of_le beyond).symm

/-- A unit that one of two twins accepts is accepted by the other, and they stay twins. -/
theorem accept (twin : Twin ref clean full) {fullAfter : Session}
    (accepted : full.accept source = (fullAfter, .ok program)) :
    ∃ cleanAfter programClean, clean.accept source = (cleanAfter, .ok programClean) ∧
      program = Stmt.relabelAll (.ofRefs (extended ref clean full)) programClean ∧
      Twin (extended ref clean full) cleanAfter fullAfter ∧
      ∀ id, fullAfter.state.distances.find? (extended ref clean full id) =
        cleanAfter.state.distances.find? id := by
  rcases accept_ok_iff.mp accepted with ⟨next, references, found, resolved, same⟩
  rcases twin.read found with ⟨programClean, nextClean, foundClean, renamed, moved⟩
  rw [renamed, resolve_relabel] at resolved
  cases resolvedClean : resolve programClean with
  | error error =>
      rw [resolvedClean] at resolved
      cases resolved
  | ok referencesClean =>
      rw [resolvedClean] at resolved
      cases resolved
      have acceptedClean := accept_ok_iff.mpr
        ⟨nextClean, referencesClean, foundClean, resolvedClean, rfl⟩
      -- Before, neither table knew the unit's references, so the renaming that covers them agreed already.
      have answers : ∀ id, fullAfter.state.distances.find? (extended ref clean full id) =
          (clean.state.distances.recordAll referencesClean).find? id := by
        intro id
        rw [same]
        exact Distances.find?_recordAll_relabel (r := .ofRefs (extended ref clean full))
          twin.extended_rising.injective (twin.extended_answers id) referencesClean
      refine ⟨_, programClean, acceptedClean, renamed, ?_, answers⟩
      refine ⟨twin.extended_rising, ?_, ?_, ?_, fun id _ => answers id, ?_, ?_⟩
      · rw [same, moved]
        exact Nat.le_add_left nextClean _
      · intro id below
        rw [same, moved]
        exact twin.extended_below (readProgram_ok foundClean).1.le below
      · have renamedState := twin.state.trans (twin.extended_state full.state.distances)
        rw [same]
        exact congrArg (fun state : State => { state with
          distances := full.state.distances.recordAll (referencesClean.map
            (Reference.relabel (.ofRefs (extended ref clean full)))) }) renamedState
      · rcases twin.settled with ⟨trees, settled⟩
        exact ⟨_, (settled.accept acceptedClean).1⟩
      · rcases twin.settledFull with ⟨trees, settled⟩
        exact ⟨_, (settled.accept accepted).1⟩

/-- Two twins run a unit that is accepted alike, and are twins again. -/
theorem run (twin : Twin ref clean full) (accepted : (full.accept source).2 = .ok program)
    (fuel : Nat) :
    (full.run fuel source).2 = (clean.run fuel source).2 ∧
      Twin (extended ref clean full) (clean.run fuel source).1 (full.run fuel source).1 := by
  have acceptedFull : full.accept source = ((full.accept source).1, .ok program) :=
    Prod.ext rfl accepted
  generalize (full.accept source).1 = fullAfter at acceptedFull
  rcases twin.accept acceptedFull with
    ⟨cleanAfter, programClean, acceptedClean, renamed, twinAfter, answers⟩
  rcases twin.settled with ⟨trees, settled⟩
  rcases twin.settledFull with ⟨treesFull, settledFull⟩
  have settledAfter := settled.run fuel source
  have settledFullAfter := settledFull.run fuel source
  -- Both runs are one and the same, seen through the renaming.
  have launched : fullAfter.state.launch program = (cleanAfter.state.launch programClean).relabel
      (.ofRefs (extended ref clean full)) fullAfter.state.distances := by
    rw [twinAfter.state, renamed]
    rfl
  have within : (cleanAfter.state.launch programClean).Within fun id =>
      fullAfter.state.distances.find? (extended ref clean full id) =
        cleanAfter.state.distances.find? id :=
    Config.Within.imp (settled.launch_bounded acceptedClean) fun id _ => answers id
  have ran := Config.iterate_step_relabel (r := .ofRefs (extended ref clean full))
    (d := fullAfter.state.distances) within fuel
  rw [← launched] at ran
  have concluded := fullAfter.conclude_relabel (r := .ofRefs (extended ref clean full))
    (d := fullAfter.state.distances) (Config.step^[fuel] (cleanAfter.state.launch programClean)) rfl
  rw [run_of_accepted acceptedFull, ran, concluded] at settledFullAfter ⊢
  rw [run_of_accepted acceptedClean] at settledAfter ⊢
  refine ⟨UnitResult.relabel_ofRefs _ _, twinAfter.rising, twinAfter.later, twinAfter.below, rfl, ?_,
    ⟨_, settledAfter⟩, ⟨_, settledFullAfter⟩⟩
  intro id _
  change fullAfter.state.distances.find? _ =
    (Config.step^[fuel] (cleanAfter.state.launch programClean)).state.distances.find? id
  rw [Config.distances_iterate_step]
  exact answers id

/-- What two twins record of a unit with equal results is alike. -/
theorem mirrors (twin : Twin ref clean full) (source : String) (result : UnitResult) :
    Record.Mirrors ⟨source, result, clean⟩ ⟨source, result, full⟩ where
  source := rfl
  result := rfl
  output := by rw [twin.state]; rfl
  alike := by
    refine ⟨ref, twin.rising, fun name => ?_, twin.state, twin.answers⟩
    change full.state.heap.get? globalScope name = _
    rw [twin.state]
    exact Heap.get?_map _ _ _ _

end Twin

/-! ## Leaving out what is rejected -/

/-- What is accepted is run. -/
theorem run_ne_rejected (accepted : (session.accept source).2 = .ok program) (fuel : Nat)
    (error : StaticError) : (session.run fuel source).2 ≠ .rejected error := by
  rw [run_of_accepted (Prod.ext rfl accepted), conclude]
  generalize Config.step^[fuel] _ = config
  cases config.state.flushed config.flowEnding <;> exact fun same => UnitResult.noConfusion same

section Records

variable {fuel gap : Nat} {rest : List (Nat × String)}

theorem records_of_unfinished (running : ((session.skip gap).run fuel source).2 = .unfinished) :
    session.records fuel ((gap, source) :: rest) =
      [⟨source, .unfinished, ((session.skip gap).run fuel source).1⟩] := by
  rw [records, running]

theorem records_of_ended (ended : ((session.skip gap).run fuel source).2 ≠ .unfinished) :
    session.records fuel ((gap, source) :: rest) =
      ⟨source, ((session.skip gap).run fuel source).2, ((session.skip gap).run fuel source).1⟩ ::
        ((session.skip gap).run fuel source).1.records fuel rest := by
  rw [records]
  split
  · contradiction
  · rfl

theorem records_of_rejected {error : StaticError}
    (refused : (session.skip gap).accept source = (after, .error error)) :
    session.records fuel ((gap, source) :: rest) =
      ⟨source, .rejected error, after⟩ :: after.records fuel rest := by
  have ran := run_of_rejected refused fuel
  rw [records_of_ended (by rw [ran]; nofun), ran]

theorem wasRun_of_accepted (accepted : (session.accept source).2 = .ok program) (fuel : Nat)
    (after : Session) : Record.wasRun ⟨source, (session.run fuel source).2, after⟩ = true := by
  unfold Record.wasRun
  split
  · rename_i error same
    exact absurd same (run_ne_rejected accepted fuel error)
  · rfl

end Records

/-- Leaving out the units that are rejected in one of two twins, the other records the same units alike. -/
theorem Twin.records_mirrored {ref : RefId → RefId} {clean full : Session} (twin : Twin ref clean full)
    (fuel : Nat) (units : List (Nat × String)) :
    let kept := (full.records fuel units).filter Record.wasRun
    List.Forall₂ Record.Mirrors (clean.records fuel (kept.map fun record => (0, record.source))) kept := by
  intro kept
  unfold kept
  clear kept
  induction units generalizing ref clean full with
  | nil => exact .nil
  | cons unit rest inductionHypothesis =>
      rcases unit with ⟨gap, source⟩
      have twinThen : Twin ref clean (full.skip gap) := twin.advance (Nat.le_add_right full.next gap)
      rcases read : (full.skip gap).accept source with ⟨after, error | program⟩
      · rcases of_rejected read with ⟨same, later⟩
        have twinAfter := twinThen.advance later
        rw [← same] at twinAfter
        rw [records_of_rejected read]
        exact inductionHypothesis twinAfter
      · have accepted : ((full.skip gap).accept source).2 = .ok program := by rw [read]
        rcases twinThen.run accepted fuel with ⟨same, twinAfter⟩
        have wasRun := wasRun_of_accepted accepted fuel ((full.skip gap).run fuel source).1
        by_cases running : ((full.skip gap).run fuel source).2 = .unfinished
        · have runningClean : ((clean.skip 0).run fuel source).2 = .unfinished := same.symm.trans running
          rw [records_of_unfinished running]
          change List.Forall₂ _ (clean.records fuel [(0, source)]) [_]
          rw [records_of_unfinished runningClean]
          exact .cons (twinAfter.mirrors source .unfinished) .nil
        · have endedClean : ((clean.skip 0).run fuel source).2 ≠ .unfinished :=
            fun runningClean => running (same.trans runningClean)
          rw [records_of_ended running, List.filter_cons_of_pos wasRun, List.map_cons,
            records_of_ended endedClean]
          have mirrored := twinAfter.mirrors source ((full.skip gap).run fuel source).2
          refine .cons ?_ (inductionHypothesis twinAfter)
          rw [same] at mirrored ⊢
          exact mirrored

/-- A unit that is rejected leaves the whole state as it was: nothing is printed, and the global names, the
recorded distances, the current scope and the number of active calls stay.  Without all such units, each of
the others comes to the same result with the same output and, up to the identities of references, the same
state; and so does a unit that does not end, within any number of steps. -/
theorem rejections_invisible (host : Host) (sink : Sink) (builtins : List Builtin) (fuel : Nat)
    (units : List (Nat × String)) :
    (∀ (session : Session) (source : String) (error : StaticError),
      (session.run fuel source).2 = .rejected error →
        (session.run fuel source).1.state = session.state) ∧
    let kept := ((start host sink builtins).records fuel units).filter Record.wasRun
    List.Forall₂ Record.Mirrors
      ((start host sink builtins).records fuel (kept.map fun record => (0, record.source))) kept := by
  refine ⟨fun session source error refused => ?_, (Twin.start host sink builtins).records_mirrored fuel units⟩
  rcases read : session.accept source with ⟨after, other | program⟩
  · rw [run_of_rejected read]
    exact (of_rejected read).1
  · exact absurd refused (run_ne_rejected (by rw [read]) fuel error)

/-- A function is declared and called, and in between units are rejected by the scanner, by the parser and by
the scope analysis. -/
theorem rejections_invisible_betweenUnits :
    let units := [(0, "var a = \"x\";"), (0, "var b = @;"), (0, "fun f() \x7b return a; \x7d"), (7, "var = a;"),
      (0, "\x7b var c = c; \x7d"), (0, "print f();")]
    let kept := ((start {} {} []).records 50 units).filter Record.wasRun
    kept.map Record.source = ["var a = \"x\";", "fun f() \x7b return a; \x7d", "print f();"] ∧
      kept.map (·.after.next) = [0, 1, 10] ∧
      kept.map (·.after.state.sink.written) = ["".toUTF8, "".toUTF8, "x\n".toUTF8] ∧
      List.Forall₂ Record.Mirrors
        ((start {} {} []).records 50 (kept.map fun record => (0, record.source))) kept := by
  intro units kept
  refine ⟨?_, ?_, ?_, (rejections_invisible {} {} [] 50 units).2⟩
  · unfold kept units
    simp only [records, Session.run, Session.accept, Session.read, readProgram, tokenize_eq]
    cbv
  · unfold kept units
    simp only [records, Session.run, Session.accept, Session.read, readProgram, tokenize_eq]
    cbv
  · unfold kept units
    simp only [records, Session.run, Session.accept, Session.read, readProgram, tokenize_eq]
    cbv

end Session

end ScopedScript
