import Mathlib.Order.Basic
import ScopedScript.Proofs.Machine.Locations
import ScopedScript.Proofs.Machine.Orderly
namespace ScopedScript

/-!
# The way of a `return`

A statement belongs to the innermost call that waits below it.  When a `return` of a call takes effect, it
goes down through blocks and loops of the same call and nothing else happens until it arrives, and a
`return` that is on its way somewhere has taken effect before, with the same value and for the same call.
From the moment when the statement begins, nothing of the call begins any more: what is evaluated
meanwhile belongs to other calls, further up.
-/

/-- The call that a statement belongs to. -/
def FlowStack.call? : FlowStack → Option FlowStack
  | .bottom => none
  | .sequence _ below | .loopStart _ below | .loopBody _ below | .leaveScope _ below => below.call?
  | .leaveCall caller stack => some (.leaveCall caller stack)

namespace Focus

/-- The value of a `return` that is on its way, and the call that it belongs to. -/
def returning? : Focus → Option (Value × Option FlowStack)
  | .flow (.returned result) below => some (result, below.call?)
  | _ => none

/-- A `return` of the given call takes effect now: its value is there, or it has none. -/
inductive GivesBack (call : FlowStack) : Value → Focus → Prop where
  | result {result : Value} {below : FlowStack} (own : below.call? = some call) :
      GivesBack call result (.value result (.giveBack below))
  | nothing {line : Nat} {below : FlowStack} (own : below.call? = some call) :
      GivesBack call .nil (.execute (.giveBack line none) below)

/-- A statement of the given call begins now, or a condition or an increment of one of its loops. -/
inductive Begins (call : FlowStack) : Focus → Prop where
  | statement {s : Stmt} {below : FlowStack} (own : below.call? = some call) : Begins call (.execute s below)
  | statements {ss : List Stmt} {below : FlowStack} (own : below.call? = some call) :
      Begins call (.executeAll ss below)
  | condition {e : Expr} {loop : Loop} {below : FlowStack} (own : below.call? = some call) :
      Begins call (.evaluate e (.loopCondition loop below))
  | increment {e : Expr} {loop : Loop} {below : FlowStack} (own : below.call? = some call) :
      Begins call (.evaluate e (.loopIncrement loop below))

theorem returning?_eq_some {focus : Focus} {result : Value} {call : Option FlowStack}
    (returning : focus.returning? = some (result, call)) :
    ∃ below, focus = .flow (.returned result) below ∧ below.call? = call := by
  cases focus with
  | flow flow below =>
      cases flow with
      | normal => cases returning
      | returned value =>
          cases returning
          exact ⟨below, rfl, rfl⟩
  | _ => cases returning

end Focus

/-! ## Where a `return` comes from -/

namespace Config

variable (state : State) (line : Nat) (stack : ValueStack) (below : FlowStack)

@[simp] theorem returning?_deliver (result : Except RuntimeCause Value) :
    (deliver state line result stack).focus.returning? = none := by
  cases result <;> rfl

@[simp] theorem returning?_evaluate (e : Expr) : (evaluate state e stack).focus.returning? = none := by
  unfold evaluate
  split
  case h_6 => split <;> rfl
  all_goals rfl

@[simp] theorem returning?_call (callee : Value) (arguments : List Value) :
    (call state line callee arguments stack).focus.returning? = none := by
  unfold call
  split
  · split
    · rfl
    · split
      · rfl
      · split
        · split <;> rfl
        · rfl
  · rfl

@[simp] theorem returning?_evaluateArguments (callee : Value) (done : List Value) (pending : List Expr) :
    (evaluateArguments state line callee done pending stack).focus.returning? = none := by
  cases pending with
  | nil => exact returning?_call ..
  | cons next rest => rfl

@[simp] theorem returning?_printNext (pending : List Expr) :
    (printNext state line pending below).focus.returning? = none := by
  cases pending <;> rfl

@[simp] theorem returning?_print (value : Value) (pending : List Expr) :
    (print state line value pending below).focus.returning? = none := by
  unfold print
  split
  · exact returning?_printNext ..
  · rfl

@[simp] theorem returning?_chooseBranch (condition : Value) (whenTrue : Stmt) (whenFalse : Option Stmt) :
    (chooseBranch state condition whenTrue whenFalse below).focus.returning? = none := by
  unfold chooseBranch
  split
  · rfl
  · split <;> rfl

@[simp] theorem returning?_beginRound (loop : Loop) :
    (beginRound state loop below).focus.returning? = none := by
  unfold beginRound
  split <;> rfl

@[simp] theorem returning?_endRound (loop : Loop) : (endRound state loop below).focus.returning? = none := by
  unfold endRound
  split
  · rfl
  · exact returning?_beginRound ..

variable {state stack below} {result : Value} {call : FlowStack}

theorem givesBack_of_execute {s : Stmt}
    (returning : (execute state s below).focus.returning? = some (result, some call)) :
    (Focus.execute s below).GivesBack call result := by
  cases s with
  | giveBack line value =>
      cases value with
      | none =>
          rcases Prod.mk.inj (Option.some.inj returning) with ⟨rfl, own⟩
          exact .nothing own
      | some value => cases returning
  | declare target initializer => cases initializer <;> cases returning
  | forLoop first condition increment body =>
      cases first with
      | none => simp [execute] at returning
      | some first => cases returning
  | print line values | whileLoop condition body => simp [execute] at returning
  | expression value | block body | branch condition whenTrue whenFalse | function target parameters body =>
      cases returning

theorem givesBack_of_resumeValue {value : Value}
    (returning : (resumeValue state value stack).focus.returning? = some (result, some call)) :
    (Focus.value value stack).GivesBack call result := by
  cases stack with
  | giveBack below =>
      rcases Prod.mk.inj (Option.some.inj returning) with ⟨rfl, own⟩
      exact .result own
  | logical op right below | assign ref target below | loopCondition loop below =>
      rw [resumeValue] at returning
      split at returning <;> cases returning
  | bottom | binaryLeft op line right below | discard below | declare name below => cases returning
  | _ => simp [resumeValue] at returning

theorem returning?_of_resumeFlow {flow : Flow}
    (returning : (resumeFlow state flow below).focus.returning? = some (result, some call)) :
    (Focus.flow flow below).returning? = some (result, some call) := by
  cases below with
  | sequence rest below =>
      cases flow with
      | normal => cases returning
      | returned value => exact returning
  | loopBody loop below =>
      cases flow with
      | normal => simp [resumeFlow] at returning
      | returned value => exact returning
  | loopStart loop below => simp [resumeFlow] at returning
  | leaveScope outer below => cases flow <;> exact returning
  | leaveCall caller stack => cases returning
  | bottom => cases flow <;> exact returning

/-- A `return` that is on its way takes effect just before, or it was on its way already. -/
theorem returning?_of_step {config : Config}
    (returning : config.step.focus.returning? = some (result, some call)) :
    config.focus.GivesBack call result ∨ config.focus.returning? = some (result, some call) := by
  rcases config with ⟨state, focus⟩
  cases focus with
  | evaluate e stack => simp [step] at returning
  | value value stack => exact .inl (givesBack_of_resumeValue returning)
  | execute s below => exact .inl (givesBack_of_execute returning)
  | executeAll ss below => cases ss <;> cases returning
  | flow flow below => exact .inr (returning?_of_resumeFlow returning)
  | unwindValue failure stack => cases stack <;> cases returning
  | unwindFlow failure below => cases below <;> cases returning

/-- A `return` that is on its way has taken effect before. -/
theorem exists_givesBack {config : Config} {n : Nat} (begins : config.focus.returning? = none)
    (returning : (step^[n] config).focus.returning? = some (result, some call)) :
    ∃ earlier < n, (step^[earlier] config).focus.GivesBack call result := by
  induction n with
  | zero => exact nomatch begins.symm.trans returning
  | succ n inductionHypothesis =>
      rw [Function.iterate_succ_apply'] at returning
      rcases returning?_of_step returning with gives | already
      · exact ⟨n, Nat.lt_succ_self n, gives⟩
      · rcases inductionHypothesis already with ⟨earlier, before, gives⟩
        exact ⟨earlier, Nat.lt_succ_of_lt before, gives⟩

end Config

/-! ## Down to the call -/

theorem FlowStack.eq_leaveCall_of_call? {call : FlowStack} : ∀ (below : FlowStack), below.call? = some call →
    ∃ caller stack, call = .leaveCall caller stack
  | .sequence _ below, own | .loopStart _ below, own | .loopBody _ below, own | .leaveScope _ below, own =>
      eq_leaveCall_of_call? below own
  | .leaveCall caller stack, own => ⟨caller, stack, (Option.some.inj own).symm⟩

namespace Config

variable {config : Config} {result : Value} {call : FlowStack}

/-- A `return` arrives at its call, and all that happens until then is that it is on its way. -/
def Arrives (call : FlowStack) (result : Value) (config : Config) : Prop :=
  ∃ n, config.EndsAt (.flow call) n ∧ (step^[n] config).focus = .flow (.returned result) call ∧
    ∀ i ≤ n, (step^[i] config).focus.returning? = some (result, some call)

theorem Arrives.of_step (returning : config.focus.returning? = some (result, some call))
    (further : config.focus.waiting ≠ .flow call) (arrives : config.step.Arrives call result) :
    config.Arrives call result := by
  rcases arrives with ⟨n, ends, there, meanwhile⟩
  refine ⟨n + 1, .of_iterate (n := 1) (fun earlier before ended => ?_) ends, there, fun i before => ?_⟩
  · cases Nat.lt_one_iff.mp before
    exact further ended.2
  · cases i with
    | zero => exact returning
    | succ i => exact meanwhile i (Nat.le_of_succ_le_succ before)

/-- On the way down to the call there is nothing that could stop a `return`. -/
theorem arrives : ∀ (below : FlowStack) (state : State), below.call? = some call → below.takesReturn = true →
    Arrives call result ⟨state, .flow (.returned result) below⟩
  | .bottom, _, own, _ => nomatch own
  | .loopStart _ _, _, _, caught => nomatch caught
  | .sequence _ inner, state, own, caught | .loopBody _ inner, state, own, caught
  | .leaveScope _ inner, state, own, caught => by
      refine .of_step (congrArg (fun call => some (result, call)) own) ?_ (arrives inner _ own caught)
      rcases FlowStack.eq_leaveCall_of_call? inner own with ⟨caller, stack, rfl⟩
      nofun
  | .leaveCall caller stack, state, own, _ => by
      cases own
      refine ⟨0, ⟨⟨rfl, rfl⟩, fun _ before => nomatch before⟩, rfl, fun i before => ?_⟩
      cases Nat.le_zero.mp before
      rfl

theorem Orderly.arrives_of_givesBack (orderly : config.Orderly)
    (gives : config.focus.GivesBack call result) : config.step.Arrives call result := by
  rcases config with ⟨state, focus⟩
  cases gives with
  | result own => exact arrives _ _ own orderly.2.2.1
  | nothing own => exact arrives _ _ own (orderly.2.1.2 rfl)

end Config

/-! ## While a `return` is under way -/

namespace FlowStack

variable {call : FlowStack}

/-- A statement under which something waits for a value belongs to a call that waits above that. -/
theorem exists_call_of_trail {stack : ValueStack} {here : Location} :
    ∀ (below : FlowStack) {there : Location}, stack.trail here <:+ (below.trail there).tail →
    ∃ caller inner, below.call? = some (.leaveCall caller inner) ∧
      (stack.trail here).length ≤ (inner.trail here).length
  | .bottom, _, kept => by
      rcases Waiting.head_trail (.value stack) here with ⟨others, whole⟩
      exact nomatch whole.symm.trans (List.suffix_nil.mp kept)
  | .sequence _ below, there, kept | .loopStart _ below, there, kept | .loopBody _ below, there, kept =>
      exists_call_of_trail below (Waiting.suffix_tail (.value stack) (.flow below) nofun kept)
  | .leaveScope outer below, there, kept =>
      exists_call_of_trail below (Waiting.suffix_tail (.value stack) (.flow below) nofun kept)
  | .leaveCall caller inner, _, kept => by
      refine ⟨caller, inner, rfl, ?_⟩
      rw [inner.length_trail here]
      exact kept.length_le

theorem length_trail_of_call? (here : Location) : ∀ (below : FlowStack), below.call? = some call →
    (call.trail here).length ≤ (below.trail here).length
  | .sequence _ below, own | .loopStart _ below, own | .loopBody _ below, own =>
      Nat.le_succ_of_le (length_trail_of_call? here below own)
  | .leaveScope _ below, own => by
      rw [trail, List.length_cons, below.length_trail _ here]
      exact Nat.le_succ_of_le (length_trail_of_call? here below own)
  | .leaveCall _ _, own => by
      cases own
      exact Nat.le_refl _

/-- While the value of a `return` is evaluated, statements that are executed belong to other calls. -/
theorem call?_ne_of_trail {below above : FlowStack} {here there : Location} (own : below.call? = some call)
    (kept : (ValueStack.giveBack below).trail here <:+ above.trail there) : above.call? ≠ some call := by
  intro same
  have further := Waiting.suffix_tail (.value (.giveBack below)) (.flow above) nofun kept
  rcases exists_call_of_trail above further with ⟨caller, inner, found, higher⟩
  rw [same] at found
  cases found
  have lower := length_trail_of_call? here below own
  rw [ValueStack.trail, List.length_cons] at higher
  rw [FlowStack.trail, List.length_cons, inner.length_trail _ here] at lower
  omega

end FlowStack

namespace Config

variable {config : Config} {call : FlowStack}

/-- A `return` of the call is under way: its value is evaluated, or it is on its way, or the evaluation has
failed. -/
inductive Returning (call : FlowStack) (config : Config) : Prop where
  | evaluates {below : FlowStack} {here : Location} (own : below.call? = some call)
      (kept : (Waiting.value (.giveBack below)).trail here <:+ config.trail)
  | returns {result : Value} (returning : config.focus.returning? = some (result, some call))
  | fails {failure : Failure} {below : FlowStack} (own : below.call? = some call)
      (unwinds : config.focus = .unwindFlow failure below)

/-- A failure goes down to the end of the call. -/
theorem unwindFlow_step {failure : Failure} {below : FlowStack} (own : below.call? = some call)
    (unwinds : config.focus = .unwindFlow failure below) (running : ¬ config.HasEnded (.flow call)) :
    ∃ inner, inner.call? = some call ∧ config.step.focus = .unwindFlow failure inner := by
  rcases config with ⟨state, focus⟩
  cases unwinds
  cases below with
  | bottom => cases own
  | leaveCall caller stack =>
      cases own
      exact absurd ⟨rfl, rfl⟩ running
  | sequence rest below | loopStart loop below | loopBody loop below | leaveScope outer below =>
      exact ⟨below, own, rfl⟩

theorem unwindFlow_iterate_step {failure : Failure} {below : FlowStack} (own : below.call? = some call)
    (unwinds : config.focus = .unwindFlow failure below) {n : Nat}
    (running : ∀ earlier < n, ¬ (step^[earlier] config).HasEnded (.flow call)) :
    ∃ inner, inner.call? = some call ∧ (step^[n] config).focus = .unwindFlow failure inner := by
  induction n with
  | zero => exact ⟨below, own, unwinds⟩
  | succ n inductionHypothesis =>
      rcases inductionHypothesis fun earlier before => running earlier (Nat.lt_succ_of_lt before)
        with ⟨inner, ownToo, unwindsToo⟩
      rw [Function.iterate_succ_apply']
      exact unwindFlow_step ownToo unwindsToo (running n (Nat.lt_succ_self n))

namespace Returning

/-- A step leaves a `return` under way until the call ends. -/
theorem step (orderly : config.Orderly) (returning : config.Returning call)
    (running : ¬ config.HasEnded (.flow call)) : config.step.Returning call := by
  cases returning with
  | @evaluates below here own kept =>
      by_cases ended : config.HasEnded (.value (.giveBack below))
      · rcases config with ⟨state, focus⟩
        rcases ended.value_or_unwindValue with ⟨result, same⟩ | ⟨failure, same⟩
        · cases same
          exact .returns (congrArg (fun call => some (result, call)) own)
        · cases same
          exact .fails own rfl
      · exact .evaluates own (trail_step kept ended)
  | returns returning =>
      rcases config with ⟨state, focus⟩
      rcases Focus.returning?_eq_some returning with ⟨below, rfl, own⟩
      cases below with
      | bottom => cases own
      | loopStart loop below => cases orderly.2.2.1
      | leaveCall caller stack =>
          cases own
          exact absurd ⟨rfl, rfl⟩ running
      | sequence rest below | loopBody loop below | leaveScope outer below => exact .returns returning
  | fails own unwinds =>
      rcases unwindFlow_step own unwinds running with ⟨inner, ownToo, unwindsToo⟩
      exact .fails ownToo unwindsToo

theorem iterate_step (orderly : config.Orderly) (returning : config.Returning call) {n : Nat}
    (running : ∀ earlier < n, ¬ (Config.step^[earlier] config).HasEnded (.flow call)) :
    (Config.step^[n] config).Returning call := by
  induction n with
  | zero => exact returning
  | succ n inductionHypothesis =>
      rw [Function.iterate_succ_apply']
      exact (inductionHypothesis fun earlier before => running earlier (Nat.lt_succ_of_lt before)).step
        (orderly.iterate_step n) (running n (Nat.lt_succ_self n))

/-- While a `return` is under way, nothing of its call begins. -/
theorem not_begins (returning : config.Returning call) : ¬ config.focus.Begins call := by
  intro begins
  cases returning with
  | evaluates own kept =>
      rcases config with ⟨state, focus⟩
      cases begins with
      | statement begun | statements begun => exact FlowStack.call?_ne_of_trail own kept begun
      | @condition e loop below begun =>
          have further :=
            Waiting.suffix_tail (.value (.giveBack _)) (.value (.loopCondition loop below)) nofun kept
          exact FlowStack.call?_ne_of_trail own further begun
      | @increment e loop below begun =>
          have further :=
            Waiting.suffix_tail (.value (.giveBack _)) (.value (.loopIncrement loop below)) nofun kept
          exact FlowStack.call?_ne_of_trail own further begun
  | returns returning =>
      rcases Focus.returning?_eq_some returning with ⟨below, same, _⟩
      rw [same] at begins
      cases begins
  | fails own unwinds =>
      rw [unwinds] at begins
      cases begins

/-- With the statement, the `return` is under way. -/
theorem of_execute {line : Nat} {value : Option Expr} {below : FlowStack}
    (executes : config.focus = .execute (.giveBack line value) below) (own : below.call? = some call) :
    config.step.Returning call := by
  rcases config with ⟨state, focus⟩
  cases executes
  cases value with
  | none => exact .returns (congrArg (fun call => some (_, call)) own)
  | some value => exact .evaluates own List.suffix_rfl

end Returning

end Config

/-! ## Calls -/

/-- The value that a `return` brings: what the evaluation of its expression ends with, or nil. -/
def State.Brings (state : State) (below : FlowStack) : Option Expr → Value → Prop
  | none, result => result = .nil
  | some e, result => ∃ n, Config.EndsAt ⟨state, .evaluate e (.giveBack below)⟩ (.value (.giveBack below)) n ∧
      (Config.step^[n] ⟨state, .evaluate e (.giveBack below)⟩).focus = .value result (.giveBack below)

namespace Config

variable {config : Config}

/-- What the `return`s of a call do, from where its body or the rest of that is about to be executed. -/
structure Delivers (caller : ScopeId) (stack : ValueStack) (config : Config) : Prop where
  /-- A `return` that takes effect goes straight to the call, and its value is that of the call. -/
  taken : ∀ n result, (∀ earlier < n, ¬ (step^[earlier] config).HasEnded (.flow (.leaveCall caller stack))) →
    (step^[n] config).focus.GivesBack (.leaveCall caller stack) result →
    ∃ m > n, config.EndsAt (.flow (.leaveCall caller stack)) m ∧
      (∀ i, n < i → i ≤ m →
        (step^[i] config).focus.returning? = some (result, some (.leaveCall caller stack))) ∧
      (step^[m + 1] config).focus = .value result stack
  /-- When none has taken effect, the value of the call is nil, unless the body has failed. -/
  untaken : ∀ m, config.EndsAt (.flow (.leaveCall caller stack)) m →
    (∀ n < m, ∀ result, ¬ (step^[n] config).focus.GivesBack (.leaveCall caller stack) result) →
    (step^[m] config).focus = .flow .normal (.leaveCall caller stack) ∧
        (step^[m + 1] config).focus = .value .nil stack ∨
      ∃ failure, (step^[m] config).focus = .unwindFlow failure (.leaveCall caller stack)
  /-- Once the statement has begun, the value that it brings is that of the call, unless the call fails. -/
  given : ∀ n m line value below, (step^[n] config).focus = .execute (.giveBack line value) below →
    below.call? = some (.leaveCall caller stack) → n < m →
    config.EndsAt (.flow (.leaveCall caller stack)) m →
    (∃ result, (step^[n] config).state.Brings below value result ∧
        (step^[m + 1] config).focus = .value result stack) ∨
      ∃ failure, (step^[m] config).focus = .unwindFlow failure (.leaveCall caller stack)
  /-- Once the statement has begun, nothing of the call begins, however long its value takes. -/
  last : ∀ n line value below, (step^[n] config).focus = .execute (.giveBack line value) below →
    below.call? = some (.leaveCall caller stack) → ∀ later > n,
    (∀ earlier < later, ¬ (step^[earlier] config).HasEnded (.flow (.leaveCall caller stack))) →
    ¬ (step^[later] config).focus.Begins (.leaveCall caller stack)

/-- The end of the body gives the call its value. -/
theorem value_of_flow {n : Nat} {flow : Flow} {caller : ScopeId} {stack : ValueStack}
    (ended : (step^[n] config).focus = .flow flow (.leaveCall caller stack)) :
    (step^[n + 1] config).focus = .value flow.result stack := by
  rw [Function.iterate_succ_apply']
  rcases same : step^[n] config with ⟨state, focus⟩
  rw [same] at ended
  cases ended
  rfl

theorem evaluates_of_giveBack {line : Nat} {e : Expr} {below : FlowStack}
    (executes : config.focus = .execute (.giveBack line (some e)) below) :
    config.step = ⟨config.state, .evaluate e (.giveBack below)⟩ := by
  rcases config with ⟨state, focus⟩
  cases executes
  rfl

theorem unwinds_of_giveBack {failure : Failure} {below : FlowStack}
    (unwinds : config.focus = .unwindValue failure (.giveBack below)) :
    config.step.focus = .unwindFlow failure below := by
  rcases config with ⟨state, focus⟩
  cases unwinds
  rfl

/-- What waits for the value of a `return` is further up than its call, so the value is there, or cannot be
had, before the call ends. -/
theorem exists_evaluated {state : State} {e : Expr} {below call : FlowStack} {m : Nat}
    (own : below.call? = some call)
    (back : (step^[m] ⟨state, .evaluate e (.giveBack below)⟩).focus.waiting = .flow call) :
    ∃ n < m, EndsAt ⟨state, .evaluate e (.giveBack below)⟩ (.value (.giveBack below)) n := by
  have evaluated : ∃ i < m, (step^[i] ⟨state, .evaluate e (.giveBack below)⟩).HasEnded
      (.value (.giveBack below)) := by
    by_contra never
    have kept : (Waiting.value (.giveBack below)).trail state.location <:+
        (step^[m] ⟨state, .evaluate e (.giveBack below)⟩).trail :=
      trail_iterate_step List.suffix_rfl fun earlier first ended => never ⟨earlier, first, ended⟩
    rcases FlowStack.eq_leaveCall_of_call? below own with ⟨caller, stack, rfl⟩
    rw [trail, back] at kept
    exact FlowStack.call?_ne_of_trail own kept rfl
  rcases evaluated with ⟨i, early, ended⟩
  rcases ended.exists_endsAt with ⟨first, least, endsAt⟩
  exact ⟨first, Nat.lt_of_le_of_lt least early, endsAt⟩

/-- When the value of a `return` cannot be had, the call fails too. -/
theorem EndsAt.failed {failure : Failure} {below call : FlowStack} {n m : Nat}
    (ends : config.EndsAt (.flow call) m) (own : below.call? = some call) (before : n < m)
    (unwinds : (step^[n] config).focus = .unwindValue failure (.giveBack below)) :
    (step^[m] config).focus = .unwindFlow failure call := by
  have unwindsBelow : (step^[n + 1] config).focus = .unwindFlow failure below := by
    rw [Function.iterate_succ_apply']
    exact unwinds_of_giveBack unwinds
  rcases Nat.exists_eq_add_of_le' (Nat.succ_le_of_lt before) with ⟨more, rfl⟩
  have arrived := unwindFlow_iterate_step own unwindsBelow (n := more) fun earlier first ended => by
    rw [← Function.iterate_add_apply] at ended
    exact ends.2 _ (Nat.add_lt_add_right first _) ended
  rw [← Function.iterate_add_apply] at arrived
  rcases arrived with ⟨inner, -, failed⟩
  have back := ends.1.2
  rw [Nat.succ_eq_add_one, failed] at back
  cases back
  exact failed

namespace Orderly

variable {caller : ScopeId} {stack : ValueStack} {n m : Nat} {result : Value}

theorem taken (orderly : config.Orderly)
    (running : ∀ earlier < n, ¬ (Config.step^[earlier] config).HasEnded (.flow (.leaveCall caller stack)))
    (gives : (Config.step^[n] config).focus.GivesBack (.leaveCall caller stack) result) :
    ∃ m > n, config.EndsAt (.flow (.leaveCall caller stack)) m ∧
      (∀ i, n < i → i ≤ m →
        (Config.step^[i] config).focus.returning? = some (result, some (.leaveCall caller stack))) ∧
      (Config.step^[m + 1] config).focus = .value result stack := by
  have arrives := (orderly.iterate_step n).arrives_of_givesBack gives
  rw [← Function.iterate_succ_apply' Config.step] at arrives
  rcases arrives with ⟨k, ends, there, meanwhile⟩
  rw [← Function.iterate_add_apply] at there
  refine ⟨k + (n + 1), by omega, .of_iterate (fun earlier before ended => ?_) ends, fun i after before => ?_,
    value_of_flow there⟩
  · rcases Nat.lt_succ_iff_lt_or_eq.mp before with first | rfl
    · exact running earlier first ended
    · rcases ended with ⟨ends, back⟩
      generalize (Config.step^[earlier] config).focus = focus at gives ends back
      cases gives with
      | result own => cases back
      | nothing own => cases ends
  · rcases Nat.exists_eq_add_of_le' (Nat.succ_le_of_lt after) with ⟨more, same⟩
    rw [same, Nat.succ_eq_add_one, Function.iterate_add_apply]
    exact meanwhile more (by omega)

theorem untaken (begins : config.focus.returning? = none)
    (ends : config.EndsAt (.flow (.leaveCall caller stack)) m)
    (none : ∀ n < m, ∀ result, ¬ (Config.step^[n] config).focus.GivesBack (.leaveCall caller stack) result) :
    (Config.step^[m] config).focus = .flow .normal (.leaveCall caller stack) ∧
        (Config.step^[m + 1] config).focus = .value .nil stack ∨
      ∃ failure, (Config.step^[m] config).focus = .unwindFlow failure (.leaveCall caller stack) := by
  rcases ends.1.flow_or_unwindFlow with ⟨flow, ended⟩ | failed
  · cases flow with
    | normal => exact .inl ⟨ended, value_of_flow ended⟩
    | returned result =>
        have returning : (Config.step^[m] config).focus.returning? =
            some (result, some (.leaveCall caller stack)) := by
          rw [ended]
          rfl
        rcases exists_givesBack begins returning with ⟨n, before, gives⟩
        exact absurd gives (none n before result)
  · exact .inr failed

theorem not_begins_after (orderly : config.Orderly) {line : Nat} {value : Option Expr} {below call : FlowStack}
    (executes : (Config.step^[n] config).focus = .execute (.giveBack line value) below)
    (own : below.call? = some call) {later : Nat} (after : n < later)
    (running : ∀ earlier < later, ¬ (Config.step^[earlier] config).HasEnded (.flow call)) :
    ¬ (Config.step^[later] config).focus.Begins call := by
  have returning := Returning.of_execute executes own
  rw [← Function.iterate_succ_apply' Config.step] at returning
  rcases Nat.exists_eq_add_of_le' (Nat.succ_le_of_lt after) with ⟨more, rfl⟩
  rw [Function.iterate_add_apply]
  refine (returning.iterate_step (orderly.iterate_step _) fun earlier before => ?_).not_begins
  rw [← Function.iterate_add_apply]
  exact running _ (by omega)

theorem given (orderly : config.Orderly) {line : Nat} {value : Option Expr} {below : FlowStack}
    (executes : (Config.step^[n] config).focus = .execute (.giveBack line value) below)
    (own : below.call? = some (.leaveCall caller stack)) (before : n < m)
    (ends : config.EndsAt (.flow (.leaveCall caller stack)) m) :
    (∃ result, (Config.step^[n] config).state.Brings below value result ∧
        (Config.step^[m + 1] config).focus = .value result stack) ∨
      ∃ failure, (Config.step^[m] config).focus = .unwindFlow failure (.leaveCall caller stack) := by
  -- Whatever is brought before the call ends is what it ends with.
  have brought {i : Nat} {result : Value} (early : i ≤ m)
      (gives : (Config.step^[i] config).focus.GivesBack (.leaveCall caller stack) result) :
      (Config.step^[m + 1] config).focus = .value result stack := by
    rcases orderly.taken (fun earlier first => ends.2 earlier (Nat.lt_of_lt_of_le first early)) gives
      with ⟨last, -, endsToo, -, result⟩
    rw [ends.unique endsToo]
    exact result
  cases value with
  | none =>
      refine .inl ⟨.nil, rfl, brought (Nat.le_of_lt before) ?_⟩
      rw [executes]
      exact .nothing own
  | some e =>
      rcases Nat.exists_eq_add_of_le' (Nat.succ_le_of_lt before) with ⟨more, rfl⟩
      have begins (i : Nat) : Config.step^[i + (n + 1)] config =
          Config.step^[i] ⟨(Config.step^[n] config).state, .evaluate e (.giveBack below)⟩ := by
        rw [Function.iterate_add_apply, Function.iterate_succ_apply', evaluates_of_giveBack executes]
      have back := ends.1.2
      rw [Nat.succ_eq_add_one, begins] at back
      rcases exists_evaluated own back with ⟨first, early, evaluated⟩
      rcases evaluated.1.value_or_unwindValue with ⟨result, same⟩ | ⟨failure, same⟩
      · refine .inl ⟨result, ⟨first, evaluated, same⟩, brought (i := first + (n + 1)) (by omega) ?_⟩
        rw [begins, same]
        exact .result own
      · rw [← begins] at same
        exact .inr ⟨failure, ends.failed own (by omega) same⟩

/-- In an orderly program every call gets what the `return`s of its body bring. -/
theorem delivers (orderly : config.Orderly) {body : List Stmt}
    (begins : config.focus = .executeAll body (.leaveCall caller stack)) : config.Delivers caller stack where
  taken _ _ running gives := orderly.taken running gives
  untaken _ ends none := untaken (by rw [begins]; rfl) ends none
  given _ _ _ _ _ executes own before ends := orderly.given executes own before ends
  last _ _ _ _ executes own _ after running := orderly.not_begins_after executes own after running

end Orderly

end Config

end ScopedScript
