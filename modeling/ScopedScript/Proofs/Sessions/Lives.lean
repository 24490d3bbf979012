import Mathlib
import ScopedScript.Proofs.Lexing.Coverage
import ScopedScript.Proofs.Machine.Mentions
import ScopedScript.Proofs.Machine.SessionRuns
import ScopedScript.Proofs.Relabeling.Steps
import ScopedScript.Proofs.Scoping.Recording
import ScopedScript.Proofs.Scoping.Sessions
namespace ScopedScript

/-!
# The life of a session

A session starts, runs texts, and meanwhile identities may be used up elsewhere: by other texts of the same
process, or by a text that was given up half-way.  `Lived` collects the trees that were read on the way,
those that the scope analysis rejected included.

The main statement is `Session.references_answered`.  No two references of all these trees share an
identity; so recording the distances of a unit touches no earlier answer, and at every later moment the
table gives, for each reference in a function that is still there, what the analysis of its own tree said.
-/

namespace Session

variable {session after : Session} {source : String} {program : List Stmt} {trees : List (List Stmt)}

/-! ## What it takes to be accepted -/

/-- A unit is accepted when it is read and analysed; then its distances are recorded. -/
theorem accept_ok_iff : session.accept source = (after, .ok program) ↔
    ∃ next references, readProgram source session.next = .ok (program, next) ∧
      resolve program = .ok references ∧
      after = ⟨{ session.state with
        distances := session.state.distances.recordAll references }, next⟩ := by
  unfold accept read
  cases readProgram source session.next with
  | error error => exact ⟨nofun, nofun⟩
  | ok result =>
      rcases result with ⟨tree, next⟩
      dsimp only
      unfold analyse
      constructor
      · intro accepted
        split at accepted
        · cases accepted
        · rename_i references resolved
          cases accepted
          exact ⟨next, references, rfl, resolved, rfl⟩
      · rintro ⟨next, references, same, resolved, sameAfter⟩
        cases same
        subst sameAfter
        rw [resolved]

/-- A rejected unit leaves the state alone, and uses up identities at most. -/
theorem of_rejected {error : StaticError} (refused : session.accept source = (after, .error error)) :
    after.state = session.state ∧ session.next ≤ after.next := by
  unfold accept read at refused
  cases found : readProgram source session.next with
  | error _ =>
      rw [found] at refused
      cases refused
      exact ⟨rfl, Nat.le_refl _⟩
  | ok result =>
      rw [found] at refused
      dsimp only at refused
      unfold analyse at refused
      split at refused
      · cases refused
        exact ⟨rfl, (readProgram_ok found).1.le⟩
      · cases refused

/-- An accepted unit changes no answer about identities handed out before. -/
theorem answer_of_accepted (accepted : session.accept source = (after, .ok program)) {ref : RefId}
    (below : ref < session.next) :
    after.state.distances.find? ref = session.state.distances.find? ref := by
  rcases accept_ok_iff.mp accepted with ⟨next, references, found, resolved, same⟩
  rcases readProgram_ok found with ⟨rising, wellFormed⟩
  rw [same]
  refine Distances.find?_recordAll_of_notMem ?_
  rw [(resolve_ok wellFormed resolved).1]
  exact fun inside => Nat.lt_irrefl ref (Nat.lt_of_lt_of_le below (rising.bounds inside).1)

/-- The tree of a text, if it has one. -/
def tree? (session : Session) (source : String) : Option (List Stmt) :=
  (session.read source).2.toOption

section Reading

variable {next : RefId} {error : StaticError}

theorem read_of_read (found : readProgram source session.next = .ok (program, next)) :
    session.read source = (⟨session.state, next⟩, .ok program) := by
  rw [read, found]

theorem read_of_unreadable (found : readProgram source session.next = .error error) :
    session.read source = (session, .error error) := by
  rw [read, found]

theorem tree?_of_read (found : readProgram source session.next = .ok (program, next)) :
    session.tree? source = some program := by
  rw [tree?, read_of_read found]
  rfl

theorem tree?_of_unreadable (found : readProgram source session.next = .error error) :
    session.tree? source = none := by
  rw [tree?, read_of_unreadable found]
  rfl

theorem accept_of_read (found : readProgram source session.next = .ok (program, next)) :
    session.accept source = Session.analyse ⟨session.state, next⟩ program := by
  rw [accept, read_of_read found]

theorem accept_of_unreadable (found : readProgram source session.next = .error error) :
    session.accept source = (session, .error error) := by
  rw [accept, read_of_unreadable found]

end Reading

/-- Identities are used up elsewhere. -/
def skip (session : Session) (count : Nat) : Session :=
  { session with next := session.next + count }

/-- What a session can have become, and the trees that were read meanwhile in the same process.  Each
unit that was run has ended; a text that was only read may belong to another session. -/
inductive Lived : List (List Stmt) → Session → Prop where
  | start (host : Host) (sink : Sink) (builtins : List Builtin) :
      Lived [] (start host sink builtins)
  | skip {trees : List (List Stmt)} {session : Session} (lived : Lived trees session) (count : Nat) :
      Lived trees (session.skip count)
  | read {trees : List (List Stmt)} {session : Session} (lived : Lived trees session)
      (source : String) : Lived (trees ++ (session.tree? source).toList) (session.read source).1
  | run {trees : List (List Stmt)} {session : Session} (lived : Lived trees session) (fuel : Nat)
      (source : String) (ended : (session.run fuel source).2 ≠ .unfinished) :
      Lived (trees ++ (session.tree? source).toList) (session.run fuel source).1

/-- The table says of a reference what the analysis of its own tree said. -/
def Answered (trees : List (List Stmt)) (distances : Distances) (ref : RefId) : Prop :=
  ∃ tree ∈ trees, ref ∈ Stmt.refsOf tree ∧ ∃ references, resolve tree = .ok references ∧
    ∃ reference ∈ references, reference.ref = ref ∧ distances.find? ref = reference.distance?

/-! ## What holds throughout a life -/

/-- Between two units: the trees share no identities and have none that is still to be handed out, and
the references in functions are answered by their own trees. -/
structure Settled (trees : List (List Stmt)) (session : Session) : Prop where
  distinct : (trees.flatMap Stmt.refsOf).Nodup
  below : ∀ ref ∈ trees.flatMap Stmt.refsOf, ref < session.next
  blank : session.state.distances.BlankFrom session.next
  answered : session.state.Within (Answered trees session.state.distances)

theorem Answered.mono {more : List (List Stmt)} {distances : Distances} {ref : RefId}
    (answered : Answered trees distances ref) : Answered (trees ++ more) distances ref := by
  rcases answered with ⟨tree, member, rest⟩
  exact ⟨tree, List.mem_append_left more member, rest⟩

/-- At the start there are only builtins. -/
theorem within_start (P : RefId → Prop) (host : Host) (sink : Sink) (builtins : List Builtin) :
    (start host sink builtins).state.Within P := by
  have fresh : State.Within P { host, sink, heap := Heap.empty.create none, scope := globalScope } :=
    Heap.All.create .empty none
  unfold start State.initial
  generalize ({ host, sink, heap := Heap.empty.create none, scope := globalScope } : State) = state at *
  induction builtins generalizing state with
  | nil => exact fresh
  | cons first rest inductionHypothesis =>
      have builtinAll : ∀ ref ∈ (Value.function state.identity (.builtin first)).refs, P ref := nofun
      exact inductionHypothesis _ (fresh.define builtinAll first.name)

namespace Settled

theorem start (host : Host) (sink : Sink) (builtins : List Builtin) :
    Settled [] (start host sink builtins) where
  distinct := List.nodup_nil
  below := nofun
  blank := (matches_start host sink builtins).blank
  answered := within_start _ host sink builtins

theorem advance (settled : Settled trees session) {next : RefId} (later : session.next ≤ next) :
    Settled trees ⟨session.state, next⟩ where
  distinct := settled.distinct
  below := fun ref member => Nat.lt_of_lt_of_le (settled.below ref member) later
  blank := fun ref beyond => settled.blank ref (Nat.le_trans later beyond)
  answered := settled.answered

/-- A tree that has just been read shares no identities with the others. -/
theorem read (settled : Settled trees session) {next : RefId}
    (found : readProgram source session.next = .ok (program, next)) :
    Settled (trees ++ [program]) ⟨session.state, next⟩ := by
  have rising := (readProgram_ok found).1
  have listed : (trees ++ [program]).flatMap Stmt.refsOf =
      trees.flatMap Stmt.refsOf ++ Stmt.refsOf program := by
    rw [List.flatMap_append, List.flatMap_singleton]
  refine ⟨?_, ?_, ?_, ?_⟩
  · rw [listed]
    refine settled.distinct.append rising.nodup ?_
    intro ref earlier new
    exact Nat.lt_irrefl ref (Nat.lt_of_lt_of_le (settled.below ref earlier) (rising.bounds new).1)
  · rw [listed]
    exact List.forall_mem_append.mpr
      ⟨(settled.advance rising.le).below, fun ref new => (rising.bounds new).2⟩
  · exact (settled.advance rising.le).blank
  · exact settled.answered.imp fun _ => .mono

/-- What is answered is below the next free identity. -/
theorem below_of_answered (settled : Settled trees session) {distances : Distances} {ref : RefId}
    (answered : Answered trees distances ref) : ref < session.next := by
  rcases answered with ⟨tree, member, inside, _⟩
  exact settled.below ref (List.mem_flatMap.mpr ⟨tree, member, inside⟩)

/-- The functions that are there have references below the next free identity only. -/
theorem bounded (settled : Settled trees session) : session.state.Within (· < session.next) :=
  settled.answered.imp fun _ => settled.below_of_answered

/-- The distances of an accepted unit are recorded: no earlier answer changes, and the unit's own
references get theirs. -/
theorem accept (settled : Settled trees session)
    (accepted : session.accept source = (after, .ok program)) :
    Settled (trees ++ [program]) after ∧
      ∀ ref ∈ Stmt.refsOf program, Answered (trees ++ [program]) after.state.distances ref := by
  rcases accept_ok_iff.mp accepted with ⟨next, references, found, resolved, same⟩
  subst same
  rcases readProgram_ok found with ⟨rising, wellFormed⟩
  have listed := (resolve_ok wellFormed resolved).1
  have readSettled := settled.read found
  rw [← listed] at rising
  rcases Distances.recordAll_known rising.nodup (fun _ => rising.bounds) rising.le settled.blank with ⟨all, knowsMore, blank⟩
  refine ⟨⟨readSettled.distinct, readSettled.below, blank, ?_⟩, ?_⟩
  · refine settled.answered.imp ?_
    rintro ref ⟨tree, member, inside, earlier, resolvedEarlier, reference, among, same, answer⟩
    have below : ref < session.next :=
      settled.below ref (List.mem_flatMap.mpr ⟨tree, member, inside⟩)
    exact ⟨tree, List.mem_append_left _ member, inside, earlier, resolvedEarlier, reference, among, same,
      (knowsMore ref _ ⟨below, answer⟩).2⟩
  · intro ref inside
    have among := inside
    rw [← listed] at among
    rcases List.mem_map.mp among with ⟨reference, member, same⟩
    subst same
    exact ⟨program, List.mem_append_right _ List.mem_cons_self, inside, references, resolved, reference,
      member, rfl, (all reference member).2⟩

/-- Wherever an accepted unit gets to, every reference that it can still use is answered. -/
theorem launch_within (settled : Settled trees session)
    (accepted : session.accept source = (after, .ok program)) (n : Nat) :
    (Config.step^[n] (after.state.launch program)).Within
      (Answered (trees ++ [program]) after.state.distances) := by
  rcases settled.accept accepted with ⟨settledAfter, answered⟩
  have launched : (after.state.launch program).Within
      (Answered (trees ++ [program]) after.state.distances) := by
    refine ⟨settledAfter.answered, holds_append answered ?_⟩
    nofun
  exact launched.iterate_step n

/-- An accepted unit begins with references below the next free identity only. -/
theorem launch_bounded (settled : Settled trees session)
    (accepted : session.accept source = (after, .ok program)) :
    (after.state.launch program).Within (· < after.next) :=
  Config.Within.imp (settled.launch_within accepted 0) fun _ =>
    (settled.accept accepted).1.below_of_answered

/-- After a unit has been run, for however long, everything is settled again. -/
theorem run (settled : Settled trees session) (fuel : Nat) (source : String) :
    Settled (trees ++ (session.tree? source).toList) (session.run fuel source).1 := by
  cases found : readProgram source session.next with
  | error error =>
      rw [tree?_of_unreadable found, run_of_rejected (accept_of_unreadable found)]
      exact (List.append_nil trees).symm ▸ settled
  | ok result =>
      rcases result with ⟨program, next⟩
      rw [tree?_of_read found]
      rcases accepted : session.accept source with ⟨after, error | other⟩
      · rw [run_of_rejected accepted]
        have same : after = ⟨session.state, next⟩ := by
          rw [accept_of_read found] at accepted
          unfold analyse at accepted
          split at accepted <;> cases accepted
          rfl
        subst same
        exact settled.read found
      · rcases accept_ok_iff.mp accepted with ⟨_, _, foundToo, _, _⟩
        cases found.symm.trans foundToo
        rcases settled.accept accepted with ⟨settledAfter, _⟩
        have within := (settled.launch_within accepted fuel).1
        have kept := Config.distances_iterate_step (after.state.launch program) fuel
        rw [run_of_accepted accepted]
        refine ⟨settledAfter.distinct, settledAfter.below, ?_, ?_⟩
        · change Distances.BlankFrom (Config.step^[fuel] (after.state.launch program)).state.distances _
          rw [kept]
          exact settledAfter.blank
        · change State.Within (Answered _
            (Config.step^[fuel] (after.state.launch program)).state.distances) _
          rw [kept]
          exact within

end Settled

theorem Lived.settled (lived : Lived trees session) : Settled trees session := by
  induction lived with
  | start host sink builtins => exact .start host sink builtins
  | skip _ count inductionHypothesis => exact inductionHypothesis.advance (Nat.le_add_right _ count)
  | @read trees session _ source inductionHypothesis =>
      cases found : readProgram source session.next with
      | error error =>
          rw [tree?_of_unreadable found, read_of_unreadable found]
          exact (List.append_nil trees).symm ▸ inductionHypothesis
      | ok result =>
          rw [tree?_of_read found, read_of_read found]
          exact inductionHypothesis.read found
  | run _ fuel source _ inductionHypothesis => exact inductionHypothesis.run fuel source

/-- No two references of all the trees of a process share an identity.  So the distances of a new unit
overwrite none that is recorded, and between units as well as at every moment of a unit, each reference
in a function that is still there, or in code still to be run, is answered as its own tree's analysis
said. -/
theorem references_answered (lived : Lived trees session) :
    (trees.flatMap Stmt.refsOf).Nodup ∧
      session.state.Within (Answered trees session.state.distances) ∧
      ∀ source program after, session.accept source = (after, .ok program) →
        (∀ ref ∈ Stmt.refsOf program, session.state.distances.find? ref = none) ∧
        (∀ ref distance, session.state.distances.find? ref = some distance →
          after.state.distances.find? ref = some distance) ∧
        ∀ n, (Config.run n (after.state.launch program)).Within
          (Answered (trees ++ [program])
            (Config.run n (after.state.launch program)).state.distances) := by
  have settled := lived.settled
  refine ⟨settled.distinct, settled.answered, ?_⟩
  intro source program after accepted
  rcases accept_ok_iff.mp accepted with ⟨_, _, found, _, _⟩
  refine ⟨?_, ?_, ?_⟩
  · intro ref inside
    exact settled.blank ref ((readProgram_ok found).1.bounds inside).1
  · intro ref distance recorded
    have below : ref < session.next := by
      by_contra beyond
      rw [settled.blank ref (Nat.not_lt.mp beyond)] at recorded
      cases recorded
    rw [answer_of_accepted accepted below]
    exact recorded
  · intro n
    rw [Config.run_eq_iterate, Config.distances_iterate_step]
    exact settled.launch_within accepted n

/-- A function of one unit, a unit that the scope analysis rejected, and a call in a third one. -/
theorem references_answered_afterRejection :
    let first := ((start {} {} []).run 20 "fun f() \x7b var a = \"x\"; return a; \x7d").1.skip 2
    let session := (first.run 20 "\x7b var b = b; \x7d").1
    let trees : List (List Stmt) :=
      [[.function ⟨"f", 1⟩ [] [.declare ⟨"a", 1⟩ (some (.constant (.text "x"))),
          .giveBack 1 (some (.variable 0 ⟨"a", 1⟩))]],
        [.block [.declare ⟨"b", 1⟩ (some (.variable 3 ⟨"b", 1⟩))]]]
    let call : Stmt := .print 1 [.call (.variable 4 ⟨"f", 1⟩) 1 []]
    Lived trees session ∧ (session.accept "print f();").2 = .ok [call] ∧
      (trees.flatMap Stmt.refsOf).Nodup ∧
      session.state.Within (Answered trees session.state.distances) ∧
      ∀ n, (Config.run n ((session.accept "print f();").1.state.launch [call])).Within
        (Answered (trees ++ [[call]])
          (Config.run n ((session.accept "print f();").1.state.launch [call])).state.distances) := by
  intro first session trees call
  have firstEnded : ((start {} {} []).run 20 "fun f() \x7b var a = \"x\"; return a; \x7d").2 =
      .finished := by
    simp only [Session.run, Session.accept, Session.read, readProgram, tokenize_eq]
    cbv
  have firstTree : (start {} {} []).tree? "fun f() \x7b var a = \"x\"; return a; \x7d" =
      some [.function ⟨"f", 1⟩ [] [.declare ⟨"a", 1⟩ (some (.constant (.text "x"))),
          .giveBack 1 (some (.variable 0 ⟨"a", 1⟩))]] := by
    simp only [tree?, Session.read, readProgram, tokenize_eq]
    cbv
  have rejected : (first.run 20 "\x7b var b = b; \x7d").2 =
      .rejected (.scope ⟨.ownInitializer, ⟨"b", 1⟩⟩) := by
    unfold first
    simp only [Session.run, Session.accept, Session.read, readProgram, tokenize_eq]
    cbv
  have rejectedTree : first.tree? "\x7b var b = b; \x7d" =
      some [.block [.declare ⟨"b", 1⟩ (some (.variable 3 ⟨"b", 1⟩))]] := by
    unfold first
    simp only [tree?, Session.run, Session.accept, Session.read, readProgram, tokenize_eq]
    cbv
  have accepted : (session.accept "print f();").2 = .ok [call] := by
    unfold session first call
    simp only [Session.run, Session.accept, Session.read, readProgram, tokenize_eq]
    cbv
  have livedFirst := Lived.run (.start {} {} []) 20
    "fun f() \x7b var a = \"x\"; return a; \x7d"
    fun unfinished => UnitResult.noConfusion (firstEnded.symm.trans unfinished)
  have lived := Lived.run (livedFirst.skip 2) 20 "\x7b var b = b; \x7d"
    fun unfinished => UnitResult.noConfusion (rejected.symm.trans unfinished)
  rw [firstTree] at lived
  rw [rejectedTree] at lived
  rcases references_answered lived with ⟨distinct, answered, next⟩
  exact ⟨lived, accepted, distinct, answered, (next "print f();" [call] _ (Prod.ext rfl accepted)).2.2⟩

end Session

end ScopedScript
