import Mathlib.Data.Nat.Find
import ScopedScript.Proofs.Machine.Changes
import ScopedScript.Proofs.Machine.Runs
namespace ScopedScript

/-!
# Every way out leads back

The location of a running program is its current scope together with the number of active calls.  Blocks,
loops and calls move to another location, and what waits for their end knows the way back.

The trail of a running program lists everything that waits, each with the location where it will go on.  A
step takes at most the first entry off the trail and puts new ones in front.  So what waited at the beginning
of an execution is still on the trail, with the same location, until the execution ends and comes back to
it: by running to its end, by a `return` or by a failure.
-/

/-- The current scope and the number of active calls. -/
structure Location where
  scope : ScopeId
  depth : Nat

/-- The location of a state. -/
def State.location (state : State) : Location := ⟨state.scope, state.depth⟩

/-- What waits for something to end. -/
inductive Waiting where
  | value (stack : ValueStack)
  | flow (below : FlowStack)

/-- What waits for a focus. -/
def Focus.waiting : Focus → Waiting
  | .evaluate _ stack | .value _ stack | .unwindValue _ stack => .value stack
  | .execute _ below | .executeAll _ below | .flow _ below | .unwindFlow _ below => .flow below

/-- Whether a focus hands an ending to what waits for it. -/
def Focus.ends : Focus → Bool
  | .value _ _ | .flow _ _ | .unwindValue _ _ | .unwindFlow _ _ => true
  | .evaluate _ _ | .execute _ _ | .executeAll _ _ => false

namespace Config

/-- An execution for which the given one waits has just ended, in whatever way. -/
def HasEnded (waiting : Waiting) (config : Config) : Prop :=
  config.focus.ends = true ∧ config.focus.waiting = waiting

/-- After so many steps, and not before, the execution for which the given one waits has ended. -/
def EndsAt (config : Config) (waiting : Waiting) (n : Nat) : Prop :=
  (step^[n] config).HasEnded waiting ∧ ∀ earlier < n, ¬ (step^[earlier] config).HasEnded waiting

variable {config : Config} {waiting : Waiting} {n m : Nat}

theorem HasEnded.value_or_unwindValue {stack : ValueStack} (ended : config.HasEnded (.value stack)) :
    (∃ result, config.focus = .value result stack) ∨ ∃ failure, config.focus = .unwindValue failure stack := by
  rcases config with ⟨state, focus⟩
  rcases ended with ⟨ends, back⟩
  cases focus <;> cases back
  case evaluate => cases ends
  case value result => exact .inl ⟨result, rfl⟩
  case unwindValue failure => exact .inr ⟨failure, rfl⟩

theorem HasEnded.flow_or_unwindFlow {below : FlowStack} (ended : config.HasEnded (.flow below)) :
    (∃ flow, config.focus = .flow flow below) ∨ ∃ failure, config.focus = .unwindFlow failure below := by
  rcases config with ⟨state, focus⟩
  rcases ended with ⟨ends, back⟩
  cases focus <;> cases back
  case execute | executeAll => cases ends
  case flow flow => exact .inl ⟨flow, rfl⟩
  case unwindFlow failure => exact .inr ⟨failure, rfl⟩

/-- An execution that has ended has done so after some number of steps. -/
theorem HasEnded.exists_endsAt (ended : (step^[n] config).HasEnded waiting) :
    ∃ first ≤ n, config.EndsAt waiting first := by
  classical
  have some_end : ∃ first, (step^[first] config).HasEnded waiting := ⟨n, ended⟩
  exact ⟨Nat.find some_end, Nat.find_min' some_end ended, Nat.find_spec some_end,
    fun _ before => Nat.find_min some_end before⟩

theorem EndsAt.unique (ends : config.EndsAt waiting n) (endsToo : config.EndsAt waiting m) : n = m := by
  rcases Nat.lt_trichotomy n m with before | same | after
  · exact absurd ends.1 (endsToo.2 n before)
  · exact same
  · exact absurd endsToo.1 (ends.2 m after)

/-- An execution that has not ended after some steps ends as it does from there. -/
theorem EndsAt.of_iterate (running : ∀ earlier < n, ¬ (step^[earlier] config).HasEnded waiting)
    (ends : (step^[n] config).EndsAt waiting m) : config.EndsAt waiting (m + n) := by
  refine ⟨?_, fun earlier before => ?_⟩
  · rw [Function.iterate_add_apply]
    exact ends.1
  · rcases Nat.lt_or_ge earlier n with first | beyond
    · exact running earlier first
    · rcases Nat.exists_eq_add_of_le' beyond with ⟨more, same⟩
      rw [same, Function.iterate_add_apply]
      exact ends.2 more (Nat.lt_of_add_lt_add_right (same ▸ before))

end Config

/-! ## The trail -/

mutual

/-- Everything that waits for a value, innermost first, each with the location where it goes on. -/
def ValueStack.trail (here : Location) : ValueStack → List (Waiting × Location)
  | .bottom => [(.value .bottom, here)]
  | .unary op line below => (.value (.unary op line below), here) :: below.trail here
  | .binaryLeft op line right below => (.value (.binaryLeft op line right below), here) :: below.trail here
  | .binaryRight op line left below => (.value (.binaryRight op line left below), here) :: below.trail here
  | .logical op right below => (.value (.logical op right below), here) :: below.trail here
  | .assign ref target below => (.value (.assign ref target below), here) :: below.trail here
  | .callee line arguments below => (.value (.callee line arguments below), here) :: below.trail here
  | .argument line callee done pending below =>
    (.value (.argument line callee done pending below), here) :: below.trail here
  | .discard below => (.value (.discard below), here) :: below.trail here
  | .print line pending below => (.value (.print line pending below), here) :: below.trail here
  | .declare name below => (.value (.declare name below), here) :: below.trail here
  | .branch whenTrue whenFalse below =>
    (.value (.branch whenTrue whenFalse below), here) :: below.trail here
  | .loopCondition loop below => (.value (.loopCondition loop below), here) :: below.trail here
  | .loopIncrement loop below => (.value (.loopIncrement loop below), here) :: below.trail here
  | .giveBack below => (.value (.giveBack below), here) :: below.trail here

/-- Everything that waits for the end of a statement, innermost first, each with the location where it goes
on. -/
def FlowStack.trail (here : Location) : FlowStack → List (Waiting × Location)
  | .bottom => [(.flow .bottom, here)]
  | .sequence rest below => (.flow (.sequence rest below), here) :: below.trail here
  | .loopStart loop below => (.flow (.loopStart loop below), here) :: below.trail here
  | .loopBody loop below => (.flow (.loopBody loop below), here) :: below.trail here
  | .leaveScope outer below =>
    (.flow (.leaveScope outer below), here) :: below.trail ⟨outer, here.depth⟩
  | .leaveCall caller below =>
    (.flow (.leaveCall caller below), here) :: below.trail ⟨caller, here.depth - 1⟩

end

/-- What waits, and everything that it waits for in turn. -/
def Waiting.trail (here : Location) : Waiting → List (Waiting × Location)
  | .value stack => stack.trail here
  | .flow below => below.trail here

/-- Everything that waits in a running program. -/
def Config.trail (config : Config) : List (Waiting × Location) :=
  config.focus.waiting.trail config.state.location

theorem Waiting.head_trail (waiting : Waiting) (here : Location) :
    ∃ others, waiting.trail here = (waiting, here) :: others := by
  rcases waiting with stack | below
  · cases stack <;> exact ⟨_, rfl⟩
  · cases below <;> exact ⟨_, rfl⟩

/-- What is on a trail and not the first of it is further down. -/
theorem Waiting.suffix_tail (waiting other : Waiting) {here there : Location} (different : waiting ≠ other)
    (kept : waiting.trail here <:+ other.trail there) : waiting.trail here <:+ (other.trail there).tail := by
  rcases waiting.head_trail here with ⟨rest, part⟩
  rcases other.head_trail there with ⟨others, whole⟩
  rw [part, whole] at kept ⊢
  refine (List.suffix_cons_iff.mp kept).resolve_left fun same => different ?_
  exact congrArg Prod.fst (List.cons.inj same).1

mutual

theorem ValueStack.length_trail : ∀ (stack : ValueStack) (here other : Location),
    (stack.trail here).length = (stack.trail other).length
  | .bottom, _, _ => rfl
  | .unary _ _ below, _, _ | .binaryLeft _ _ _ below, _, _ | .binaryRight _ _ _ below, _, _
  | .logical _ _ below, _, _ | .assign _ _ below, _, _ | .callee _ _ below, _, _
  | .argument _ _ _ _ below, _, _ => congrArg Nat.succ (below.length_trail _ _)
  | .discard below, _, _ | .print _ _ below, _, _ | .declare _ below, _, _ | .branch _ _ below, _, _
  | .loopCondition _ below, _, _ | .loopIncrement _ below, _, _ | .giveBack below, _, _ =>
    congrArg Nat.succ (below.length_trail _ _)

theorem FlowStack.length_trail : ∀ (below : FlowStack) (here other : Location),
    (below.trail here).length = (below.trail other).length
  | .bottom, _, _ => rfl
  | .sequence _ below, _, _ | .loopStart _ below, _, _ | .loopBody _ below, _, _
  | .leaveScope _ below, _, _ => congrArg Nat.succ (below.length_trail _ _)
  | .leaveCall _ stack, _, _ => congrArg Nat.succ (stack.length_trail _ _)

end

/-! ## A step and the trail -/

/-- A call goes on in a new scope, one call deeper. -/
theorem State.location_enterCall (state : State) (closure : Closure) (arguments : List Value) :
    (state.enterCall closure arguments).location = ⟨state.heap.nextId, state.depth + 1⟩ :=
  bindParameters_of_define (P := fun after => after.location = ⟨state.heap.nextId, state.depth + 1⟩)
    (fun _ _ _ holds => holds) closure.parameters rfl

theorem State.location_of_writeLine {state after : State} {text : String} {whole : Bool}
    (written : state.writeLine text = (after, whole)) : after.location = state.location :=
  (congrArg (fun result => result.1.location) written).symm

namespace Config

variable (state : State) (stack : ValueStack) (below : FlowStack)

theorem trail_deliver (line : Nat) (result : Except RuntimeCause Value) :
    stack.trail state.location <:+ (deliver state line result stack).trail := by
  cases result <;> exact List.suffix_rfl

theorem trail_evaluate (e : Expr) : stack.trail state.location <:+ (evaluate state e stack).trail := by
  unfold evaluate
  split
  case h_6 => split <;> exact List.suffix_rfl
  all_goals first
    | exact List.suffix_rfl
    | exact List.suffix_cons _ _

theorem trail_call (line : Nat) (callee : Value) (arguments : List Value) :
    stack.trail state.location <:+ (call state line callee arguments stack).trail := by
  unfold call
  split
  · split
    · exact List.suffix_rfl
    · split
      · exact List.suffix_rfl
      · split
        · split <;> exact List.suffix_rfl
        · rw [trail, State.location_enterCall]
          exact List.suffix_cons _ _
  · exact List.suffix_rfl

theorem trail_evaluateArguments (line : Nat) (callee : Value) (done : List Value) (pending : List Expr) :
    stack.trail state.location <:+ (evaluateArguments state line callee done pending stack).trail := by
  cases pending with
  | nil => exact trail_call state stack line callee done.reverse
  | cons next rest => exact List.suffix_cons _ _

theorem trail_printNext (line : Nat) (pending : List Expr) :
    below.trail state.location <:+ (printNext state line pending below).trail := by
  cases pending with
  | nil => exact List.suffix_rfl
  | cons next rest => exact List.suffix_cons _ _

theorem trail_print (line : Nat) (value : Value) (pending : List Expr) :
    below.trail state.location <:+ (print state line value pending below).trail := by
  unfold print
  split
  next written =>
    rw [← State.location_of_writeLine written]
    exact trail_printNext _ below line pending
  next written =>
    rw [← State.location_of_writeLine written]
    exact List.suffix_rfl

theorem trail_chooseBranch (condition : Value) (whenTrue : Stmt) (whenFalse : Option Stmt) :
    below.trail state.location <:+ (chooseBranch state condition whenTrue whenFalse below).trail := by
  unfold chooseBranch
  split
  · exact List.suffix_rfl
  · split <;> exact List.suffix_rfl

theorem trail_beginRound (loop : Loop) :
    below.trail state.location <:+ (beginRound state loop below).trail := by
  unfold beginRound
  split <;> exact List.suffix_cons _ _

theorem trail_endRound (loop : Loop) :
    below.trail state.location <:+ (endRound state loop below).trail := by
  unfold endRound
  split
  · exact List.suffix_cons _ _
  · exact trail_beginRound state below loop

theorem trail_execute (s : Stmt) : below.trail state.location <:+ (execute state s below).trail := by
  cases s with
  | print line values => exact trail_printNext state below line values
  | declare target initializer =>
      cases initializer with
      | none => exact List.suffix_rfl
      | some value => exact List.suffix_cons _ _
  | whileLoop condition body => exact trail_beginRound state below _
  | forLoop first condition increment body =>
      -- The scope of the loop is left for the one that was current before.
      have around : below.trail state.location <:+
          (FlowStack.leaveScope state.scope below).trail (state.enterScope state.scope).location :=
        List.suffix_cons _ _
      cases first with
      | none => exact around.trans (trail_beginRound _ _ _)
      | some first => exact around.trans (List.suffix_cons _ _)
  | function target parameters body => exact List.suffix_rfl
  | giveBack line value =>
      cases value with
      | none => exact List.suffix_rfl
      | some value => exact List.suffix_cons _ _
  | _ => exact List.suffix_cons _ _

theorem trail_resumeValue (value : Value) :
    (stack.trail state.location).tail <:+ (resumeValue state value stack).trail := by
  cases stack with
  | bottom => exact List.nil_suffix
  | unary op line below => exact trail_deliver state below line _
  | binaryLeft op line right below => exact List.suffix_cons _ _
  | binaryRight op line left below => exact trail_deliver state below line _
  | logical op right below =>
      rw [resumeValue]
      split <;> exact List.suffix_rfl
  | assign ref target below =>
      rw [resumeValue, state.assign_eq]
      cases state.writeScope ref target <;> exact List.suffix_rfl
  | callee line arguments below => exact trail_evaluateArguments state below line value [] arguments
  | argument line callee done pending below =>
      exact trail_evaluateArguments state below line callee (value :: done) pending
  | print line pending below => exact trail_print state below line value pending
  | branch whenTrue whenFalse below => exact trail_chooseBranch state below value whenTrue whenFalse
  | loopCondition loop below =>
      rw [resumeValue]
      split
      · exact List.suffix_cons _ _
      · exact List.suffix_rfl
  | loopIncrement loop below => exact trail_beginRound state below loop
  | discard below | declare name below | giveBack below => exact List.suffix_rfl

theorem trail_resumeFlow (flow : Flow) :
    (below.trail state.location).tail <:+ (resumeFlow state flow below).trail := by
  cases below with
  | bottom => exact List.nil_suffix
  | sequence rest below => cases flow <;> exact List.suffix_rfl
  | loopStart loop below => exact trail_beginRound state below loop
  | loopBody loop below =>
      cases flow with
      | normal => exact trail_endRound state below loop
      | returned value => exact List.suffix_rfl
  | leaveScope outer below => exact List.suffix_rfl
  | leaveCall caller below => exact List.suffix_rfl

variable {config : Config}

/-- A step that begins something keeps the whole trail. -/
theorem trail_step_of_begins (begins : config.focus.ends = false) : config.trail <:+ config.step.trail := by
  rcases config with ⟨state, focus⟩
  cases focus with
  | evaluate e stack => exact trail_evaluate state stack e
  | execute s below => exact trail_execute state below s
  | executeAll ss below =>
      cases ss with
      | nil => exact List.suffix_rfl
      | cons first rest => exact List.suffix_cons _ _
  | value | flow | unwindValue | unwindFlow => cases begins

/-- No step takes more than the first entry off the trail. -/
theorem tail_trail_step (config : Config) : config.trail.tail <:+ config.step.trail := by
  rcases config with ⟨state, focus⟩
  cases focus with
  | value value stack => exact trail_resumeValue state stack value
  | flow flow below => exact trail_resumeFlow state below flow
  | unwindValue failure stack => cases stack <;> first
      | exact List.nil_suffix
      | exact List.suffix_rfl
  | unwindFlow failure below => cases below <;> first
      | exact List.nil_suffix
      | exact List.suffix_rfl
  | evaluate | execute | executeAll =>
      exact (List.tail_suffix _).trans (trail_step_of_begins rfl)

/-! ## What waits goes on in its own location -/

variable {waiting : Waiting} {here : Location} {n : Nat}

/-- A step keeps what waits on the trail unless it has just been come back to. -/
theorem trail_step (kept : waiting.trail here <:+ config.trail) (running : ¬ config.HasEnded waiting) :
    waiting.trail here <:+ config.step.trail := by
  cases ends : config.focus.ends with
  | false => exact kept.trans (trail_step_of_begins ends)
  | true =>
      rcases config.focus.waiting.head_trail config.state.location with ⟨others, whole⟩
      rcases waiting.head_trail here with ⟨rest, part⟩
      refine List.IsSuffix.trans ?_ config.tail_trail_step
      rw [trail, whole, part] at kept
      rw [trail, whole, part]
      refine (List.suffix_cons_iff.mp kept).resolve_left fun same => running ⟨ends, ?_⟩
      exact (congrArg Prod.fst (List.cons.inj same).1).symm

/-- During an execution, what waits for its end is on the trail. -/
theorem trail_iterate_step (kept : waiting.trail here <:+ config.trail)
    (running : ∀ earlier < n, ¬ (step^[earlier] config).HasEnded waiting) :
    waiting.trail here <:+ (step^[n] config).trail := by
  induction n with
  | zero => exact kept
  | succ n inductionHypothesis =>
      rw [Function.iterate_succ_apply']
      exact trail_step (inductionHypothesis fun earlier before => running earlier (Nat.lt_succ_of_lt before))
        (running n (Nat.lt_succ_self n))

/-- Whatever is come back to goes on in the location that the trail has for it. -/
theorem location_of_trail (kept : waiting.trail here <:+ config.trail)
    (back : config.focus.waiting = waiting) : config.state.location = here := by
  have same : waiting.trail here = config.trail := by
    refine kept.eq_of_length ?_
    rw [trail, back]
    cases waiting with
    | value stack => exact stack.length_trail _ _
    | flow below => exact below.length_trail _ _
  rcases config.focus.waiting.head_trail config.state.location with ⟨others, whole⟩
  rcases waiting.head_trail here with ⟨rest, part⟩
  rw [trail, whole, part] at same
  exact (congrArg Prod.snd (List.cons.inj same).1).symm

/-- An execution ends in the location where it has begun. -/
theorem EndsAt.location_eq (begins : config.focus.waiting = waiting) (ended : config.EndsAt waiting n) :
    (step^[n] config).state.location = config.state.location := by
  refine location_of_trail (trail_iterate_step ?_ ended.2) ended.1.2
  rw [← begins]
  exact List.suffix_rfl

end Config

end ScopedScript
