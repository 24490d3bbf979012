import Mathlib
import ScopedScript.Proofs.Lexing.Joining
import ScopedScript.Proofs.Machine.Programs
import ScopedScript.Proofs.Machine.Returns
import ScopedScript.Proofs.Relabeling.Units
import ScopedScript.Proofs.Sessions.Lives
namespace ScopedScript

/-!
# Units that are joined into one

Two units run one after the other do what one unit does that has the text of both, with a newline in
between.  The second text then stands further down, and that is all the difference: its lines move, and
with them the lines of the failures that its code raises, also much later when a function of it is called.
The lines of older code stay.

To say which lines move, the second unit is also run with marked lines: those of its own code are odd, and
those of the code that was there before are even.  Both runs come from the marked one, by reading the odd
marks as lines at the one or at the other place: `Session.joined_as_apart`.
-/

/-! ## The text -/

section Reading

variable {first second : String} {next middle last : RefId} {firstProgram secondProgram : List Stmt}

/-- Of two texts with a newline between them, both programs are read, the second one on lines further down. -/
theorem readProgram_joined (firstRead : readProgram first next = .ok (firstProgram, middle))
    (secondRead : readProgram second middle = .ok (secondProgram, last)) :
    readProgram (first ++ "\n" ++ second) next =
      .ok (firstProgram ++ Stmt.relabelAll (.ofLines (· + (1 + Lexer.newlines first.toList))) secondProgram,
        last) := by
  rcases tokenize_of_readProgram firstRead with ⟨firstStream, firstCut, firstParsed⟩
  rcases tokenize_of_readProgram secondRead with ⟨secondStream, secondCut, secondParsed⟩
  refine readProgram_of_tokenize (tokenize_joined firstCut secondCut) ?_
  let below : Place := ⟨(· + (1 + Lexer.newlines first.toList)), 0, []⟩
  let whole : Place := ⟨id, 0, below.tokens secondStream.tokens⟩
  have unchanged : (fun id : RefId => 0 + id) = id := funext Nat.zero_add
  have belowLabels : below.labels = .ofLines (· + (1 + Lexer.newlines first.toList)) :=
    congrArg (Relabeling.mk · _) unchanged
  have wholeLabels : whole.labels = .same := congrArg (Relabeling.mk · _) unchanged
  have secondPlaced : parse (below.tokens secondStream.tokens) (0 + middle) = _ :=
    parse_placed_alone secondParsed rfl
  rw [belowLabels, Nat.zero_add last] at secondPlaced
  have placed : parse (whole.tokens firstStream.tokens) (0 + next) = _ :=
    parse_placed firstParsed secondPlaced
  rw [wholeLabels, Stmt.relabelAll_same, Nat.zero_add next] at placed
  have together : whole.tokens firstStream.tokens = firstStream.tokens ++
      secondStream.tokens.map (Token.relabel (.ofLines (· + (1 + Lexer.newlines first.toList)))) :=
    congrArg₂ (· ++ ·) (List.map_id firstStream.tokens) (List.append_nil _)
  rwa [together] at placed

end Reading

/-! ## Marked lines -/

namespace Relabeling

/-- The lines that marks stand for, when marked code has moved so many lines down. -/
def unmarked (shift : Nat) : Relabeling :=
  .ofLines fun mark => if mark % 2 = 0 then mark / 2 else mark / 2 + shift

/-- Even marks stand for the lines of older code, which stay. -/
theorem unmarked_after_even (shift : Nat) : (unmarked shift).after (.ofLines (2 * ·)) = .same := by
  refine congrArg (Relabeling.mk id) (funext fun line => ?_)
  change (if 2 * line % 2 = 0 then 2 * line / 2 else _) = line
  rw [if_pos (Nat.mul_mod_right 2 line), Nat.mul_div_cancel_left line (Nat.succ_pos 1)]

/-- Odd marks stand for the lines of marked code, which move. -/
theorem unmarked_after_odd (shift : Nat) :
    (unmarked shift).after (.ofLines (2 * · + 1)) = .ofLines (· + shift) := by
  refine congrArg (Relabeling.mk id) (funext fun line => ?_)
  change (if (2 * line + 1) % 2 = 0 then _ else (2 * line + 1) / 2 + shift) = line + shift
  rw [if_neg (by omega)]
  omega

end Relabeling

/-- A program about to run, with its own lines odd, and the lines of the functions that are there even. -/
def State.launchMarked (state : State) (program : List Stmt) : Config :=
  (state.relabel (.ofLines (2 * ·)) state.distances).launch (Stmt.relabelAll (.ofLines (2 * · + 1)) program)

theorem State.relabel_launchMarked (state : State) (program : List Stmt) (shift : Nat) :
    (state.launchMarked program).relabel (.unmarked shift) state.distances =
      state.launch (Stmt.relabelAll (.ofLines (· + shift)) program) := by
  have older := State.relabel_relabel (d := state.distances) (.unmarked shift) (.ofLines (2 * ·)) state
    state.distances
  have own := Stmt.relabelAll_relabelAll (.unmarked shift) (.ofLines (2 * · + 1)) program
  rw [Relabeling.unmarked_after_even, State.relabel_same] at older
  rw [Relabeling.unmarked_after_odd] at own
  exact congrArg₂ State.launch older own

namespace Session

/-- A session with other lines. -/
def relabel (r : Relabeling) (session : Session) : Session :=
  ⟨session.state.relabel r session.state.distances, session.next⟩

/-- What is left of a session with other lines, and what became of the unit. -/
def relabelRun (r : Relabeling) (ran : Session × UnitResult) : Session × UnitResult :=
  (ran.1.relabel r, ran.2.relabel r)

/-- Lines do not show in the output. -/
theorem sink_relabelRun (r : Relabeling) (ran : Session × UnitResult) :
    (relabelRun r ran).1.state.sink = ran.1.state.sink := rfl

/-- Run a text as the next unit with its own lines odd, and the lines of everything older even. -/
def runMarked (fuel : Nat) (session : Session) (source : String) : Session × UnitResult :=
  match session.accept source with
  | (session, .error error) => (session, .rejected error)
  | (session, .ok program) => session.conclude (Config.run fuel (session.state.launchMarked program))

theorem runMarked_of_accepted {session after : Session} {source : String} {program : List Stmt}
    (accepted : session.accept source = (after, .ok program)) (fuel : Nat) :
    session.runMarked fuel source =
      after.conclude (Config.step^[fuel] (after.state.launchMarked program)) := by
  rw [runMarked, accepted]
  change after.conclude (Config.run fuel _) = _
  rw [Config.run_eq_iterate]

/-- A program runs on other lines as it does with marked ones. -/
theorem conclude_marked (session : Session) (state : State) (program : List Stmt) (shift m : Nat) :
    session.conclude (Config.step^[m] (state.launch (Stmt.relabelAll (.ofLines (· + shift)) program))) =
      relabelRun (.unmarked shift) (session.conclude (Config.step^[m] (state.launchMarked program))) := by
  have within : (state.launchMarked program).Within fun ref =>
      state.distances.find? ((Relabeling.unmarked shift).ref ref) =
        (state.launchMarked program).state.distances.find? ref :=
    ⟨fun _ _ _ _ _ _ => rfl, fun _ _ => rfl⟩
  have ran := Config.iterate_step_relabel within m
  rw [State.relabel_launchMarked] at ran
  rw [ran, conclude_relabel _ _ rfl, relabelRun, relabel]
  have kept := Config.distances_iterate_step (state.launchMarked program) m
  change _ = (Session.mk ((Config.step^[m] (state.launchMarked program)).state.relabel _
    (Config.step^[m] (state.launchMarked program)).state.distances) session.next, _)
  rw [kept]
  rfl

/-! ## Acceptance -/

section Accepted

variable {session middle last other : Session} {first second source : String}
  {firstProgram secondProgram program : List Stmt} {trees : List (List Stmt)}

/-- What a session accepts is accepted at any later point, under other identities. -/
theorem accept_later (accepted : (session.accept source).2 = .ok program)
    (later : session.next ≤ other.next) :
    (other.accept source).2 =
      .ok (Stmt.relabelAll (.ofRefs (other.next - session.next + ·)) program) := by
  rcases accept_ok_iff.mp (Prod.ext rfl accepted) with ⟨next, references, found, resolved, _⟩
  have foundLater := readProgram_offset (other.next - session.next) found
  rw [Nat.sub_add_cancel later] at foundLater
  have resolvedLater := resolve_relabel (.ofRefs (other.next - session.next + ·)) program
  rw [resolved] at resolvedLater
  exact congrArg Prod.snd (accept_ok_iff.mpr ⟨_, _, foundLater, resolvedLater, rfl⟩)

/-- A session with another state is ready for the same unit when its table is the same. -/
theorem accept_of_distances (accepted : session.accept source = (last, .ok program)) {state : State}
    (same : state.distances = session.state.distances) :
    Session.accept ⟨state, session.next⟩ source =
      (⟨{ state with distances := last.state.distances }, last.next⟩, .ok program) := by
  rcases accept_ok_iff.mp accepted with ⟨next, references, found, resolved, after⟩
  refine accept_ok_iff.mpr ⟨next, references, found, resolved, ?_⟩
  rw [after, same]

/-- Two units that are accepted one after the other are accepted as one, and leave the same session. -/
theorem accept_joined (firstAccepted : session.accept first = (middle, .ok firstProgram))
    (secondAccepted : middle.accept second = (last, .ok secondProgram)) :
    session.accept (first ++ "\n" ++ second) =
      (last, .ok (firstProgram ++
        Stmt.relabelAll (.ofLines (· + (1 + Lexer.newlines first.toList))) secondProgram)) := by
  rcases accept_ok_iff.mp firstAccepted with ⟨next, references, found, resolved, same⟩
  subst same
  rcases accept_ok_iff.mp secondAccepted with ⟨nextToo, referencesToo, foundToo, resolvedToo, same⟩
  have shifted := resolve_relabel (.ofLines (· + (1 + Lexer.newlines first.toList))) secondProgram
  rw [resolvedToo] at shifted
  refine accept_ok_iff.mpr
    ⟨nextToo, _, readProgram_joined found foundToo, resolve_append resolved shifted, ?_⟩
  rw [same, Distances.recordAll_append, Distances.recordAll_ofLines]

/-- The first unit runs alike when the second one has been accepted meanwhile. -/
theorem launch_earlier (settled : Settled trees session)
    (firstAccepted : session.accept first = (middle, .ok firstProgram))
    (secondAccepted : middle.accept second = (last, .ok secondProgram)) (n : Nat) :
    Config.step^[n] (last.state.launch firstProgram) =
      let ran := Config.step^[n] (middle.state.launch firstProgram)
      ⟨{ ran.state with distances := last.state.distances }, ran.focus⟩ := by
  have within : (middle.state.launch firstProgram).Within fun id =>
      last.state.distances.find? (Relabeling.same.ref id) =
        (middle.state.launch firstProgram).state.distances.find? id :=
    Config.Within.imp (settled.launch_bounded firstAccepted) fun id below =>
      answer_of_accepted secondAccepted below
  have ran := Config.iterate_step_relabel within n
  rw [Config.relabel_same, Config.relabel_same] at ran
  rcases accept_ok_iff.mp secondAccepted with ⟨_, _, _, _, same⟩
  subst same
  exact ran

end Accepted

/-! ## Runs -/

section Runs

variable {session middle last : Session} {first second : String}
  {firstProgram secondProgram : List Stmt} {trees : List (List Stmt)}

/-- Once the first unit has finished, the rest of the joined unit is the second one further down. -/
theorem run_joined_of_finished (settled : Settled trees session)
    (firstAccepted : session.accept first = (middle, .ok firstProgram))
    (secondAccepted : middle.accept second = (last, .ok secondProgram)) {n : Nat}
    (finished : (session.run n first).2 = .finished) :
    ∃ k, ∀ m, let marked := (session.run n first).1.runMarked m second
      (session.run n first).1.run m second = relabelRun (.unmarked 0) marked ∧
        session.run (k + m) (first ++ "\n" ++ second) =
          relabelRun (.unmarked (1 + Lexer.newlines first.toList)) marked := by
  let ran := Config.step^[n] (middle.state.launch firstProgram)
  have ranApart : session.run n first = middle.conclude ran := run_of_accepted firstAccepted n
  rw [ranApart] at finished ⊢
  rcases focus_of_finished finished with ⟨flow, ended⟩
  rcases accept_ok_iff.mp firstAccepted with ⟨_, _, _, resolved, _⟩
  have normal := Config.flow_normal_of_resolved resolved ended
  subst normal
  have accepted : (middle.conclude ran).1.accept second = _ :=
    accept_of_distances secondAccepted (Config.distances_iterate_step _ n)
  -- Where the first unit ends, both ways are at the same point, with the distances of both units recorded.
  let ready : Session := ⟨{ ran.state with distances := last.state.distances }, last.next⟩
  have early : Config.step^[n] (last.state.launch firstProgram) = ⟨ready.state, ran.focus⟩ :=
    launch_earlier settled firstAccepted secondAccepted n
  rw [ended] at early
  rcases Config.launch_append firstProgram (by rw [early]; rfl) with ⟨k, follows⟩
  rw [early] at follows
  refine ⟨k, fun m => ?_⟩
  dsimp only
  rw [runMarked_of_accepted accepted, run_of_accepted accepted,
    run_of_accepted (accept_joined firstAccepted secondAccepted), Nat.add_comm k m,
    Function.iterate_add_apply, follows]
  constructor
  · have unmoved : Stmt.relabelAll (.ofLines (· + 0)) secondProgram = secondProgram :=
      Stmt.relabelAll_same secondProgram
    have apart := conclude_marked ready ready.state secondProgram 0 m
    rwa [unmoved] at apart
  · exact conclude_marked ready ready.state secondProgram (1 + Lexer.newlines first.toList) m

/-- Once the first unit has failed, so has the joined one. -/
theorem run_joined_of_failed (settled : Settled trees session)
    (flushes : session.state.sink.flushFails = false)
    (firstAccepted : session.accept first = (middle, .ok firstProgram))
    (secondAccepted : middle.accept second = (last, .ok secondProgram)) {n : Nat} {failure : Failure}
    (failed : (session.run n first).2 = .failed failure) :
    ∃ k, ∀ m, (session.run (k + m) (first ++ "\n" ++ second)).2 = .failed failure ∧
      (session.run (k + m) (first ++ "\n" ++ second)).1.state.sink =
        (session.run n first).1.state.sink := by
  let ran := Config.step^[n] (middle.state.launch firstProgram)
  have ranApart : session.run n first = middle.conclude ran := run_of_accepted firstAccepted n
  rw [ranApart] at failed ⊢
  have still : ran.state.sink.flushFails = false := by
    rcases accept_ok_iff.mp firstAccepted with ⟨_, _, _, _, same⟩
    refine (Config.flushFails_iterate_step _ n).trans ?_
    rw [same]
    exact flushes
  let ready : Session := ⟨{ ran.state with distances := last.state.distances }, last.next⟩
  have early : Config.step^[n] (last.state.launch firstProgram) = ⟨ready.state, ran.focus⟩ :=
    launch_earlier settled firstAccepted secondAccepted n
  rw [focus_of_failed still failed] at early
  rcases Config.launch_append firstProgram (by rw [early]; rfl) with ⟨k, follows⟩
  rw [early] at follows
  refine ⟨k, fun m => ?_⟩
  rw [run_of_accepted (accept_joined firstAccepted secondAccepted), Nat.add_comm k m,
    Function.iterate_add_apply, follows]
  have stays (others : List Stmt) :
      Config.step^[m] (Config.followedBy others ⟨ready.state, .unwindFlow failure .bottom⟩) =
        ⟨ready.state, .unwindFlow failure .bottom⟩ := Config.iterate_step_of_isDone rfl m
  rw [stays]
  exact ⟨rfl, rfl⟩

end Runs

/-- The boundary between two units is invisible.  When the scanner, the parser and the scope analysis accept
two texts, they accept both with a newline in between, as the statements of the first text and then those
of the second one, on lines further down and up to the identities of references.  If the first unit
finishes, the joined unit prints the same as both units, leaves the same session and has the same result,
except that the lines of the second text have moved; if it fails, the joined unit fails alike. -/
theorem joined_as_apart {trees : List (List Stmt)} {session : Session} {first second : String}
    {firstProgram secondProgram : List Stmt} (lived : Lived trees session)
    (flushes : session.state.sink.flushFails = false)
    (firstAccepted : (session.accept first).2 = .ok firstProgram)
    (secondAccepted : (session.accept second).2 = .ok secondProgram) :
    let joined := first ++ "\n" ++ second
    let shift := 1 + Lexer.newlines first.toList
    (∃ offset, (session.accept joined).2 =
      .ok (firstProgram ++ Stmt.relabelAll ⟨(offset + ·), (· + shift)⟩ secondProgram)) ∧
    (∀ n, (session.run n first).2 = .finished → ∃ k, ∀ m,
      let apart := (session.run n first).1.run m second
      let marked := (session.run n first).1.runMarked m second
      apart = relabelRun (.unmarked 0) marked ∧
        session.run (k + m) joined = relabelRun (.unmarked shift) marked ∧
        (session.run (k + m) joined).1.state.sink = apart.1.state.sink) ∧
    ∀ n failure, (session.run n first).2 = .failed failure → ∃ k, ∀ m,
      (session.run (k + m) joined).2 = .failed failure ∧
        (session.run (k + m) joined).1.state.sink = (session.run n first).1.state.sink := by
  intro joined shift
  have settled := lived.settled
  have firstThen : session.accept first = ((session.accept first).1, .ok firstProgram) :=
    Prod.ext rfl firstAccepted
  have later : session.next ≤ (session.accept first).1.next := by
    rcases accept_ok_iff.mp firstThen with ⟨next, references, found, _, same⟩
    rw [same]
    exact (readProgram_ok found).1.le
  have secondThen : (session.accept first).1.accept second =
      (((session.accept first).1.accept second).1, .ok _) :=
    Prod.ext rfl (accept_later secondAccepted later)
  refine ⟨⟨(session.accept first).1.next - session.next, ?_⟩, ?_, ?_⟩
  · have whole := congrArg Prod.snd (accept_joined firstThen secondThen)
    rw [Stmt.relabelAll_relabelAll] at whole
    exact whole
  · intro n finished
    rcases run_joined_of_finished settled firstThen secondThen finished with ⟨k, agree⟩
    refine ⟨k, fun m => ?_⟩
    rcases agree m with ⟨apart, together⟩
    refine ⟨apart, together, ?_⟩
    rw [apart, together, sink_relabelRun, sink_relabelRun]
  · intro n failure failed
    exact run_joined_of_failed settled flushes firstThen secondThen failed

/-- The second text reads a name that is not there.  Alone it does so on its line 2, and joined on line 4. -/
theorem joined_as_apart_undefinedName :
    let session := start {} {} []
    let first := "var a = \"x\"; // and so on\nprint a;"
    let second := "print a;\nb;"
    let firstProgram : List Stmt :=
      [.declare ⟨"a", 1⟩ (some (.constant (.text "x"))), .print 2 [.variable 0 ⟨"a", 2⟩]]
    let secondProgram : List Stmt :=
      [.print 1 [.variable 0 ⟨"a", 1⟩], .expression (.variable 1 ⟨"b", 2⟩)]
    Lived [] session ∧ session.state.sink.flushFails = false ∧
      (session.accept first).2 = .ok firstProgram ∧ (session.accept second).2 = .ok secondProgram ∧
      (session.run 20 first).2 = .finished ∧
      ((session.run 20 first).1.run 20 second).2 = .failed (.runtime ⟨.undefinedVariable "b", 2⟩) ∧
      ∃ k, (session.run (k + 20) (first ++ "\n" ++ second)).2 =
        .failed (.runtime ⟨.undefinedVariable "b", 4⟩) := by
  intro session first second firstProgram secondProgram
  have lived : Lived [] session := .start {} {} []
  have flushes : session.state.sink.flushFails = false := rfl
  have firstAccepted : (session.accept first).2 = .ok firstProgram := by
    unfold session first firstProgram
    simp only [Session.accept, Session.read, readProgram, tokenize_eq]
    cbv
  have secondAccepted : (session.accept second).2 = .ok secondProgram := by
    unfold session second secondProgram
    simp only [Session.accept, Session.read, readProgram, tokenize_eq]
    cbv
  have finished : (session.run 20 first).2 = .finished := by
    unfold session first
    simp only [Session.run, Session.accept, Session.read, readProgram, tokenize_eq]
    cbv
  have failed : ((session.run 20 first).1.run 20 second).2 =
      .failed (.runtime ⟨.undefinedVariable "b", 2⟩) := by
    unfold session first second
    simp only [Session.run, Session.accept, Session.read, readProgram, tokenize_eq]
    cbv
  have marked : ((session.run 20 first).1.runMarked 20 second).2 =
      .failed (.runtime ⟨.undefinedVariable "b", 5⟩) := by
    unfold session first second
    simp only [Session.run, Session.accept, Session.read, readProgram, tokenize_eq]
    cbv
  have oneNewline : Lexer.newlines first.toList = 1 := by
    unfold first
    cbv
  rcases (joined_as_apart lived flushes firstAccepted secondAccepted).2.1 20 finished with ⟨k, agree⟩
  refine ⟨lived, flushes, firstAccepted, secondAccepted, finished, failed, k, ?_⟩
  rw [(agree 20).2.1, relabelRun, marked, oneNewline]
  rfl

end Session

end ScopedScript
