import ScopedScript.Proofs.Machine.GlobalNames
import ScopedScript.Proofs.Machine.InOrder
import ScopedScript.Proofs.Relabeling.Steps
import ScopedScript.Proofs.Sessions.Restored
namespace ScopedScript

/-!
# Which global names a program adds

The statements of a program run one after another at the top level, so after any number of steps the global
names are those from before and those that the completed statements declare.
-/

theorem Stmt.mem_declaredNames_cons {first : Stmt} {rest : List Stmt} {name : String} :
    name ∈ declaredNames (first :: rest) ↔ first.declared? = some name ∨ name ∈ declaredNames rest := by
  unfold declaredNames
  cases declares : first.declared? with
  | none => simp [declares]
  | some other => simp [declares, eq_comm]

namespace Config

variable {config : Config} {base : FlowStack}

theorem accessesBound_of_isDone (done : config.isDone = true) : config.AccessesBound := by
  rcases config with ⟨state, focus⟩
  cases focus with
  | value value stack =>
      cases stack with
      | bottom => trivial
      | _ => cases done
  | evaluate e stack => cases done
  | _ => trivial

theorem isInitializing_onto (name : String) : ∀ stack : ValueStack,
    (stack.onto base).isInitializing name = stack.isInitializing name
  | .unary _ _ below | .binaryLeft _ _ _ below | .binaryRight _ _ _ below | .logical _ _ below
  | .assign _ _ below | .callee _ _ below | .argument _ _ _ _ below => isInitializing_onto name below
  | .bottom | .discard _ | .print _ _ _ | .declare _ _ | .branch _ _ _ | .loopCondition _ _
  | .loopIncrement _ _ | .giveBack _ => rfl

/-- What is at the bottom does not matter for an access. -/
theorem accessesBound_of_onto (fits : (config.onto base).AccessesBound) : config.AccessesBound := by
  rcases config with ⟨state, focus⟩
  cases focus with
  | evaluate e stack => cases e <;> exact fits
  | value value stack =>
      cases stack with
      | assign ref target below =>
          intro distance recorded
          rcases fits distance recorded with ⟨holder, leads, bound⟩
          rw [isInitializing_onto] at bound
          exact ⟨holder, leads, bound⟩
      | _ => trivial
  | _ => trivial

end Config

/-- A program is about to run at the top level, and all its accesses will be fine. -/
structure State.Ready (known : Known) (state : State) (program : List Stmt) : Prop where
  atTop : state.scope = globalScope
  exists_global : globalScope < state.heap.nextId
  distances : ∀ ref distance, known ref distance → state.distances.find? ref = distance
  bound : Stmt.AllBound known [] program
  fits : ∀ n, (Config.step^[n] (state.launch program)).AccessesBound

namespace State.Ready

variable {known : Known} {state middle last : State} {first : Stmt} {rest : List Stmt} {fuel n : Nat}

/-- The first statement, run on its own, makes the same accesses. -/
theorem fits_first (ready : state.Ready known (first :: rest)) (n : Nat) :
    (Config.step^[n] ⟨state, .execute first .bottom⟩).AccessesBound := by
  by_cases done : (Config.step^[n] ⟨state, .execute first .bottom⟩).isDone = true
  · exact Config.accessesBound_of_isDone done
  · have busy : ∀ earlier < n, (Config.step^[earlier] ⟨state, .execute first .bottom⟩).isDone = false := by
      intro earlier before
      refine eq_false_of_ne_true fun doneEarlier => done ?_
      rw [Config.iterate_step_eq_of_le doneEarlier (Nat.le_of_lt before)]
      exact doneEarlier
    have fits := ready.fits (n + 1)
    change (Config.step^[n] (Config.onto (.sequence rest .bottom) ⟨state, .execute first .bottom⟩)).AccessesBound
      at fits
    rw [Config.iterate_step_onto busy] at fits
    exact Config.accessesBound_of_onto fits

/-- The first statement, run on its own, adds the name that it declares when it is through. -/
theorem names_first (ready : state.Ready known (first :: rest)) (n : Nat) (name : String) :
    (Config.step^[n] ⟨state, .execute first .bottom⟩).state.hasGlobal name = true ↔
      state.hasGlobal name = true ∨
        (Config.step^[n] ⟨state, .execute first .bottom⟩).focus = .flow .normal .bottom ∧
          first.declared? = some name := by
  have shows : state.Shows known state.hasGlobal := ⟨fun _ => rfl, ready.exists_global, ready.distances⟩
  cases n with
  | zero => exact ⟨.inl, fun either => either.elim id fun through => nomatch through.1⟩
  | succ n =>
      rw [Function.iterate_succ_apply]
      refine ((Config.adds_step_execute shows ready.atTop ready.bound.1).iterate_step ?_ n).hasGlobal_iff name
      exact fun m => ready.fits_first (m + 1)

/-- Where the first statement is not through, the program has done what that has done. -/
theorem state_launch_cons (state : State) (first : Stmt) (rest : List Stmt)
    (notThrough : (Config.step^[n] ⟨state, .execute first .bottom⟩).focus ≠ .flow .normal .bottom) :
    (Config.step^[n + 1] (state.launch (first :: rest))).state =
      (Config.step^[n] ⟨state, .execute first .bottom⟩).state := by
  change (Config.step^[n] (Config.onto (.sequence rest .bottom) ⟨state, .execute first .bottom⟩)).state = _
  by_cases done : (Config.step^[n] ⟨state, .execute first .bottom⟩).isDone = true
  · rcases Config.exists_first_done done with ⟨soon, before, doneSoon, plugged⟩
    have same := Config.iterate_step_eq_of_le doneSoon before
    rw [same] at notThrough ⊢
    rcases Nat.exists_eq_add_of_le' before with ⟨more, rfl⟩
    rw [Function.iterate_add_apply, plugged]
    cases more with
    | zero => rfl
    | succ more =>
        rw [Function.iterate_succ_apply, Config.step_onto_sequence doneSoon,
          Config.followedBy_of_not_normal notThrough, Config.iterate_step_of_isDone doneSoon]
  · rw [Config.iterate_step_onto]
    · rfl
    · intro earlier before
      refine eq_false_of_ne_true fun doneEarlier => done ?_
      rw [Config.iterate_step_eq_of_le doneEarlier (Nat.le_of_lt before)]
      exact doneEarlier

/-- Where the first statement is through, the others have followed, or do so with the next step. -/
theorem exists_launch_cons (rest : List Stmt)
    (through : (Config.step^[n] ⟨state, .execute first .bottom⟩).focus = .flow .normal .bottom)
    (left : (Config.step^[n] ⟨state, .execute first .bottom⟩).state = middle) :
    ∃ soon ≤ n, state.execute soon first = (middle, .done .normal) ∧
      (Config.step^[soon + 1] (state.launch (first :: rest))).state = middle ∧
      Config.step^[soon + 2] (state.launch (first :: rest)) = middle.launch rest := by
  have done : (Config.step^[n] ⟨state, .execute first .bottom⟩).isDone = true := by
    rw [Config.isDone, through]
  rcases Config.exists_first_done done with ⟨soon, before, doneSoon, plugged⟩
  rw [Config.iterate_step_eq_of_le doneSoon before] at through left
  have follows : Config.step^[soon + 1] (state.launch (first :: rest)) =
      (Config.step^[soon] ⟨state, .execute first .bottom⟩).onto (.sequence rest .bottom) := plugged _
  refine ⟨soon, before, ?_, ?_, ?_⟩
  · rw [State.execute_eq, Config.flowEnding, through, left]
  · rw [follows]
    exact left
  · rw [Function.iterate_succ_apply', follows, Config.step_onto_sequence doneSoon,
      Config.followedBy_of_normal through, left]

/-- A statement that is through has added the name that it declares. -/
theorem names_of_completes (ready : state.Ready known (first :: rest))
    (completes : state.execute fuel first = (middle, .done .normal)) (name : String) :
    middle.hasGlobal name = true ↔ state.hasGlobal name = true ∨ first.declared? = some name := by
  have names := ready.names_first fuel name
  rw [State.execute_eq, Prod.mk.injEq] at completes
  rw [completes.1, Config.flowEnding_eq_done completes.2] at names
  exact names.trans (or_congr_right (and_iff_right rfl))

/-- Once the first statement is through, the others are ready. -/
theorem next (ready : state.Ready known (first :: rest))
    (completes : state.execute fuel first = (middle, .done .normal)) : middle.Ready known rest := by
  have located : (state.execute fuel first).1.location = state.location := by
    refine State.location_execute fun unfinished => ?_
    rw [completes] at unfinished
    cases unfinished
  rw [completes] at located
  rw [State.execute_eq, Prod.mk.injEq] at completes
  have through := Config.flowEnding_eq_done completes.2
  rcases exists_launch_cons rest through completes.1 with ⟨soon, -, -, -, reached⟩
  refine ⟨(congrArg Location.scope located).trans ready.atTop, ?_, ?_, ?_, fun n => ?_⟩
  · rw [← completes.1]
    have grown := Config.extends_iterate_step ⟨state, .execute first .bottom⟩ (Nat.zero_le fuel)
    exact Nat.lt_of_lt_of_le ready.exists_global grown.older
  · rw [← completes.1, Config.distances_iterate_step]
    exact ready.distances
  · have rest := ready.bound.2
    cases first <;> exact rest
  · rw [← reached, ← Function.iterate_add_apply]
    exact ready.fits (n + (soon + 2))

end State.Ready

/-- After so many steps of a program, some of its statements have completed one after another, and of the
others the next one has not. -/
structure State.HasCompleted (state : State) (program : List Stmt) (n : Nat) (completed rest : List Stmt)
    (middle : State) : Prop where
  parts : program = completed ++ rest
  inOrder : state.InOrder completed middle (.done .normal)
  reached : ∃ k ≤ n + 1, Config.step^[k] (state.launch program) = middle.launch rest ∧
    ∀ first others, rest = first :: others → ∀ more, k + more < n →
      (middle.execute more first).2 ≠ .done .normal

namespace State.HasCompleted

variable {state middle last : State} {first : Stmt} {program completed rest others : List Stmt} {soon n : Nat}

/-- Nothing has completed as long as the first statement has not. -/
theorem nothing (running : ∀ first others, program = first :: others → ∀ more < n,
    (state.execute more first).2 ≠ .done .normal) : state.HasCompleted program n [] program state := by
  refine ⟨rfl, .nil state, 0, Nat.zero_le _, rfl, fun first others parts more before => ?_⟩
  exact running first others parts more (Nat.zero_add more ▸ before)

/-- The first statement has just completed. -/
theorem one (completes : state.execute soon first = (middle, .done .normal))
    (follows : Config.step^[soon + 2] (state.launch (first :: rest)) = middle.launch rest) :
    state.HasCompleted (first :: rest) (soon + 1) [first] rest middle := by
  refine ⟨rfl, .cons soon completes (.nil middle), soon + 2, Nat.le_refl _, follows, ?_⟩
  intro _ _ _ more before
  omega

/-- After the first statement, others have completed. -/
theorem cons (completes : state.execute soon first = (middle, .done .normal))
    (follows : Config.step^[soon + 2] (state.launch (first :: rest)) = middle.launch rest)
    (hasCompleted : middle.HasCompleted rest n completed others last) :
    state.HasCompleted (first :: rest) (n + (soon + 2)) (first :: completed) others last := by
  rcases hasCompleted with ⟨parts, inOrder, k, least, reached, running⟩
  refine ⟨?_, .cons soon completes inOrder, k + (soon + 2), ?_, ?_, ?_⟩
  · rw [parts]
    rfl
  · omega
  · rw [Function.iterate_add_apply, follows, reached]
  · intro next behind same more before
    exact running next behind same more (by omega)

end State.HasCompleted

namespace State.Ready

variable {known : Known} {state middle last : State} {program completed rest : List Stmt} {first : Stmt}

/-- Statements that have completed have added the names that they declare, and the others are ready. -/
theorem after_inOrder (inOrder : state.InOrder completed middle (.done .normal)) :
    state.Ready known (completed ++ rest) → middle.Ready known rest ∧ ∀ name,
      (middle.hasGlobal name = true ↔ state.hasGlobal name = true ∨ name ∈ Stmt.declaredNames completed) := by
  intro ready
  generalize ended : Ending.done Flow.normal = ending at inOrder
  induction inOrder with
  | nil state => exact ⟨ready, fun name => (or_iff_left List.not_mem_nil).symm⟩
  | @cons state middle last first others ending fuel completes inOrder inductionHypothesis =>
      rcases inductionHypothesis (ready.next completes) ended with ⟨readyLast, added⟩
      refine ⟨readyLast, fun name => ?_⟩
      rw [added name, ready.names_of_completes completes, Stmt.mem_declaredNames_cons, or_assoc]
  | fails fuel failed => cases ended

/-- At every step the global names are those from before and those of the statements that have completed. -/
theorem exists_completed (ready : state.Ready known program) (n : Nat) :
    ∃ completed rest middle, state.HasCompleted program n completed rest middle ∧ ∀ name,
      ((Config.step^[n] (state.launch program)).state.hasGlobal name = true ↔
        state.hasGlobal name = true ∨ name ∈ Stmt.declaredNames completed) := by
  induction program generalizing state n with
  | nil =>
      refine ⟨[], [], state, .nothing fun first others impossible => ?_, fun name => ?_⟩
      · cases impossible
      · have same : (Config.step^[n] (state.launch [])).state = state := by
          cases n with
          | zero => rfl
          | succ n => exact congrArg Config.state (Config.iterate_step_of_isDone rfl n)
        rw [same]
        exact (or_iff_left List.not_mem_nil).symm
  | cons first rest inductionHypothesis =>
      cases n with
      | zero =>
          refine ⟨[], first :: rest, state, .nothing fun _ _ _ more before => ?_, fun name => ?_⟩
          · exact absurd before (Nat.not_lt_zero more)
          · exact (or_iff_left List.not_mem_nil).symm
      | succ n =>
          by_cases through : (Config.step^[n] ⟨state, .execute first .bottom⟩).focus = .flow .normal .bottom
          · rcases exists_launch_cons rest through rfl with ⟨soon, before, completes, here, follows⟩
            have names := ready.names_of_completes completes
            rcases Nat.eq_or_lt_of_le before with rfl | earlier
            · refine ⟨[first], rest, _, .one completes follows, fun name => ?_⟩
              rw [here, names, Stmt.mem_declaredNames_cons]
              exact or_congr_right (or_iff_left List.not_mem_nil).symm
            · rcases Nat.exists_eq_add_of_le' earlier with ⟨more, rfl⟩
              rcases inductionHypothesis (ready.next completes) more with
                ⟨completed, others, last, hasCompleted, added⟩
              refine ⟨first :: completed, others, last, hasCompleted.cons completes follows, fun name => ?_⟩
              change (Config.step^[more + (soon + 2)] _).state.hasGlobal name = true ↔ _
              rw [Function.iterate_add_apply, follows, added, names, Stmt.mem_declaredNames_cons, or_assoc]
          · refine ⟨[], first :: rest, state, .nothing ?_, fun name => ?_⟩
            · rintro _ _ ⟨⟩ more before normal
              rw [State.execute_eq] at normal
              have throughEarlier := Config.flowEnding_eq_done normal
              have doneEarlier : (Config.step^[more] ⟨state, .execute first .bottom⟩).isDone = true := by
                rw [Config.isDone, throughEarlier]
              rw [Config.iterate_step_eq_of_le doneEarlier (Nat.le_of_lt_succ before)] at through
              exact through throughEarlier
            · rw [state_launch_cons state first rest through, ready.names_first n name]
              exact or_congr_right (iff_of_false (fun declares => through declares.1) List.not_mem_nil)

end State.Ready

end ScopedScript
