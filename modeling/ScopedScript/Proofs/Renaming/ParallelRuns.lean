import ScopedScript.Proofs.Desugaring.LoopRuns
import ScopedScript.Proofs.Renaming.Counterparts
namespace ScopedScript

/-!
# Runs side by side

Two runs are parallel when, from stores that are counterparts, they end in the same way with counterparts of the
same values, or are both out of fuel with the same output.  Between the two runs nothing is waited for: everything
that the evaluator is made of takes the same steps on both sides.

More functions may be made on the way, and a value that was had earlier still has its counterpart then.  So what
comes next has to be parallel whatever functions have been made by then.
-/

namespace Cells

variable {made more : List Pairing}

/-- Two runs from counterparts have ended in the same way. -/
inductive EndAlike {α : Type} (alike : List Pairing → α → α → Prop) (made : List Pairing) :
    Outcome α × Store → Outcome α × Store → Prop where
  | done {more : List Pairing} {result other : α} {store storeToo : Store} (grows : made <+: more)
      (same : alike more result other) (stores : store.Counterpart more storeToo) :
      EndAlike alike made (.done result, store) (.done other, storeToo)
  | failed (error : RuntimeError) {store storeToo : Store} (sink : storeToo.sink = store.sink) :
      EndAlike alike made (.failed error, store) (.failed error, storeToo)
  | unfinished {store storeToo : Store} (sink : storeToo.sink = store.sink) :
      EndAlike alike made (.unfinished, store) (.unfinished, storeToo)

/-- From counterparts, with at least these functions made, two runs end in the same way. -/
def Parallel {α : Type} (alike : List Pairing → α → α → Prop) (made : List Pairing) (run runToo : Run α) : Prop :=
  ∀ more, made <+: more → ∀ store storeToo : Store, store.Counterpart more storeToo →
    EndAlike alike more (run store) (runToo storeToo)

/-- Nothing depends on what has been made. -/
abbrev Always {α : Type} (alike : α → α → Prop) : List Pairing → α → α → Prop := fun _ => alike

/-- What two statements leave behind which this pairing holds. -/
def LeaveBehind (after : Pairing) (made : List Pairing) (left leftToo : Flow × Env) : Prop :=
  left.1.Counterpart made leftToo.1 ∧ Env.Counterpart after left.2 leftToo.2

namespace Parallel

variable {α β : Type} {alike : List Pairing → α → α → Prop} {alikeNext : List Pairing → β → β → Prop}

theorem done {result other : α} (same : ∀ more, made <+: more → alike more result other) :
    Parallel alike made (pure result) (pure other) :=
  fun more grows _ _ stores => .done List.prefix_rfl (same more grows) stores

theorem fail (cause : RuntimeCause) (line : Nat) : Parallel alike made (Run.fail cause line) (Run.fail cause line) :=
  fun _ _ _ _ stores => .failed _ stores.sink

theorem outOfFuel : Parallel alike made Run.outOfFuel Run.outOfFuel :=
  fun _ _ _ _ stores => .unfinished stores.sink

/-- What comes next goes on from counterparts, when more functions may have been made. -/
theorem bind {first firstToo : Run α} {next nextToo : α → Run β} (parallel : Parallel alike made first firstToo)
    (parallelNext : ∀ more, made <+: more → ∀ result other, alike more result other →
      Parallel alikeNext more (next result) (nextToo other)) :
    Parallel alikeNext made (first >>= next) (firstToo >>= nextToo) := by
  intro more grows store storeToo stores
  have ends := parallel more grows store storeToo stores
  change EndAlike alikeNext more (first.andThen next store) (firstToo.andThen nextToo storeToo)
  unfold Run.andThen
  generalize first store = ended at ends ⊢
  generalize firstToo storeToo = endedToo at ends ⊢
  cases ends with
  | @done later result other _ _ growsLater same stores =>
      have rest := parallelNext later (grows.trans growsLater) result other same later List.prefix_rfl _ _ stores
      dsimp only
      generalize next result _ = last at rest ⊢
      generalize nextToo other _ = lastToo at rest ⊢
      cases rest with
      | done growsMore same stores => exact .done (growsLater.trans growsMore) same stores
      | failed error sink => exact .failed error sink
      | unfinished sink => exact .unfinished sink
  | failed error sink => exact .failed error sink
  | unfinished sink => exact .unfinished sink

/-! ## Names -/

variable {pairing : Pairing} {env envToo : Env} {name other : String} {value valueToo : Value}

theorem declare (around : Env.Counterpart pairing env envToo) (admits : pairing.Admits name other) :
    Parallel (Always (Env.Counterpart (pairing.declare name other))) made (declare env name)
      (declare envToo other) := by
  intro more grows store storeToo stores
  cases around with
  | topLevel => exact .done List.prefix_rfl .topLevel stores
  | inside cells =>
      have inner := Env.Counterpart.insert (.inside cells) admits store.cells.size
      unfold Cells.declare
      rw [stores.size]
      exact .done List.prefix_rfl inner stores.addCell

theorem define (around : Env.Counterpart pairing env envToo) (means : pairing.Means name other)
    (same : value.Counterpart made valueToo) :
    Parallel (Always Eq) made (define env name value) (define envToo other valueToo) := by
  intro more grows store storeToo stores
  have same := same.mono grows
  rcases around.find?_eq means with ⟨found, global⟩
  unfold Cells.define
  rw [found]
  cases place : env.find? name with
  | some cell => exact .done List.prefix_rfl rfl (stores.setCell cell same)
  | none =>
      cases global place
      exact .done List.prefix_rfl rfl (stores.setGlobal name same)

theorem read (around : Env.Counterpart pairing env envToo) (means : pairing.Means name other) (line : Nat) :
    Parallel Value.Counterpart made (read env ⟨name, line⟩) (read envToo ⟨other, line⟩) := by
  intro more grows store storeToo stores
  rcases around.find?_eq means with ⟨found, global⟩
  unfold Cells.read
  dsimp only
  rw [found]
  cases place : env.find? name with
  | some cell => exact .done List.prefix_rfl (stores.cells cell) stores
  | none =>
      cases global place
      have globals := stores.globals name
      dsimp only
      generalize store.globals.find? name = value at globals ⊢
      generalize storeToo.globals.find? name = valueToo at globals ⊢
      cases globals with
      | some same => exact .done List.prefix_rfl same stores
      | none => exact .failed _ stores.sink

theorem write (around : Env.Counterpart pairing env envToo) (means : pairing.Means name other) (line : Nat)
    (same : value.Counterpart made valueToo) :
    Parallel (Always Eq) made (write env ⟨name, line⟩ value) (write envToo ⟨other, line⟩ valueToo) := by
  intro more grows store storeToo stores
  have same := same.mono grows
  rcases around.find?_eq means with ⟨found, global⟩
  unfold Cells.write
  dsimp only
  rw [found]
  cases place : env.find? name with
  | some cell => exact .done List.prefix_rfl rfl (stores.setCell cell same)
  | none =>
      cases global place
      have globals := stores.globals name
      dsimp only
      generalize store.globals.find? name = old at globals ⊢
      generalize storeToo.globals.find? name = oldToo at globals ⊢
      cases globals with
      | some _ => exact .done List.prefix_rfl rfl (stores.setGlobal name same)
      | none => exact .failed _ stores.sink

theorem bindParameters {inner : Pairing} {parameters parametersToo : List Identifier}
    (together : pairing.Parameters parameters parametersToo inner) {arguments argumentsToo : List Value}
    (same : List.Forall₂ (Value.Counterpart made) arguments argumentsToo)
    (full : arguments.length = parameters.length) (around : Env.Counterpart pairing env envToo) :
    Parallel (Always (Env.Counterpart inner)) made (bindParameters parameters arguments env)
      (bindParameters parametersToo argumentsToo envToo) := by
  induction together generalizing made arguments argumentsToo env envToo with
  | nil _ => exact done fun _ _ => around
  | @cons pairing after name other line rest restToo admits tail inductionHypothesis =>
      cases same with
      | nil => cases full
      | cons sameFirst sameRest =>
          refine (declare around admits).bind fun more grows middle middleToo inside => ?_
          refine (define inside admits.means (sameFirst.mono grows)).bind fun later growsLater _ _ _ => ?_
          have sameRest := sameRest.imp fun _ _ same => same.mono (grows.trans growsLater)
          exact inductionHypothesis sameRest (Nat.succ.inj full) inside

/-! ## Functions and printing -/

theorem close {inner after : Pairing} (around : Env.Counterpart pairing env envToo) (name : String)
    {parameters parametersToo : List Identifier} {body bodyToo : List Stmt}
    (together : Pairing.Parameters ([] :: pairing) parameters parametersToo inner)
    (inside : Stmt.AlphaAll inner body bodyToo after) :
    Parallel Value.Counterpart made (close env name parameters body)
      (close envToo name parametersToo bodyToo) := by
  intro more grows store storeToo stores
  unfold Cells.close
  rw [stores.identity, stores.functions, stores.functionsToo]
  have declared : (more ++ [pairing])[more.length]? = some pairing := List.getElem?_concat_length
  have captured := stores.capture around
  rw [stores.identity] at captured
  exact .done (List.prefix_append more [pairing]) (.closure _ name declared together inside) captured

theorem capturedBy {closure closureToo : Closure} (sameScope : closureToo.scope = closure.scope)
    (declared : made[closure.scope]? = some pairing) :
    Parallel (Always (Env.Counterpart pairing)) made (capturedBy closure) (capturedBy closureToo) := by
  intro more grows store storeToo stores
  rcases grows with ⟨later, rfl⟩
  have shorter := (List.getElem?_eq_some_iff.mp declared).1
  have around := stores.captured closure.scope pairing ((List.getElem?_append_left shorter).trans declared)
  unfold Cells.capturedBy
  rw [sameScope]
  exact .done List.prefix_rfl around stores

/-- The result of an operator is no function that a program has declared. -/
theorem deliver (line : Nat) {result : Except RuntimeCause Value}
    (plain : ∀ value, result = .ok value → value.isClosure = false) :
    Parallel Value.Counterpart made (deliver line result) (deliver line result) := by
  cases result with
  | ok value => exact done fun _ _ => .plain (plain value rfl)
  | error cause => exact fail cause line

theorem printLine (line : Nat) (same : value.Counterpart made valueToo) :
    Parallel (Always Eq) made (printLine line value) (printLine line valueToo) := by
  intro more grows store storeToo stores
  unfold Cells.printLine
  rw [stores.sink, same.similar.render_eq]
  rcases store.sink.writeLine valueToo.render with ⟨sink, _ | _⟩
  · exact .failed _ rfl
  · exact .done List.prefix_rfl rfl { stores with sink := rfl }

/-! ## Parts in order -/

section

variable {evaluate evaluateToo : Expr → Run Value}

/-- Alpha-equivalent expressions are evaluated in parallel. -/
def Evaluates (pairing : Pairing) (evaluate evaluateToo : Expr → Run Value) : Prop :=
  ∀ ⦃e eToo : Expr⦄, e.Alpha pairing eToo → ∀ made, Parallel Value.Counterpart made (evaluate e) (evaluateToo eToo)

theorem evaluateAll (parallel : Evaluates pairing evaluate evaluateToo) : ∀ {es esToo : List Expr},
    Expr.AlphaAll pairing es esToo → ∀ made, Parallel (fun made => List.Forall₂ (Value.Counterpart made)) made
      (evaluateAll evaluate es) (evaluateAll evaluateToo esToo)
  | _, _, .nil, _ => done fun _ _ => .nil
  | _, _, .cons head tail, made => by
      refine (parallel head made).bind fun more grows value valueToo same => ?_
      refine (evaluateAll parallel tail more).bind fun later growsLater values valuesToo sameAll => ?_
      exact done fun last growsLast => .cons (same.mono (growsLater.trans growsLast))
        (sameAll.imp fun _ _ same => same.mono growsLast)

theorem printAll (parallel : Evaluates pairing evaluate evaluateToo) (line : Nat) : ∀ {es esToo : List Expr},
    Expr.AlphaAll pairing es esToo → ∀ made, Parallel (Always Eq) made (printAll evaluate line es)
      (printAll evaluateToo line esToo)
  | _, _, .nil, _ => done fun _ _ => rfl
  | _, _, .cons head tail, made => by
      refine (parallel head made).bind fun more grows value valueToo same => ?_
      exact (printLine line same).bind fun later growsLater _ _ _ => printAll parallel line tail later

theorem evaluate? (parallel : Evaluates pairing evaluate evaluateToo) {e eToo : Option Expr}
    (alpha : Expr.Alpha? pairing e eToo) :
    Parallel Value.Counterpart made (evaluate? evaluate e) (evaluate? evaluateToo eToo) := by
  cases alpha with
  | none => exact done fun _ _ => .nil
  | some present => exact parallel present made

theorem goesOn (parallel : Evaluates pairing evaluate evaluateToo) {condition conditionToo : Option Expr}
    (alpha : Expr.Alpha? pairing condition conditionToo) :
    Parallel (Always Eq) made (goesOn evaluate condition) (goesOn evaluateToo conditionToo) := by
  cases alpha with
  | none => exact done fun _ _ => rfl
  | some present =>
      exact (parallel present made).bind fun _ _ _ _ same => done fun _ _ => same.similar.isTruthy_eq

theorem advance (parallel : Evaluates pairing evaluate evaluateToo) {increment incrementToo : Option Expr}
    (alpha : Expr.Alpha? pairing increment incrementToo) :
    Parallel (Always Eq) made (advance evaluate increment) (advance evaluateToo incrementToo) := by
  cases alpha with
  | none => exact done fun _ _ => rfl
  | some present => exact (parallel present made).bind fun _ _ _ _ _ => done fun _ _ => rfl

end

section

variable {execute executeToo : Env → Stmt → Run (Flow × Env)}

/-- Alpha-equivalent statements are executed in parallel. -/
def Executes (execute executeToo : Env → Stmt → Run (Flow × Env)) : Prop :=
  ∀ ⦃pairing after : Pairing⦄ ⦃env envToo : Env⦄ ⦃s sToo : Stmt⦄, Env.Counterpart pairing env envToo →
    s.Alpha pairing sToo after → ∀ made, Parallel (LeaveBehind after) made (execute env s) (executeToo envToo sToo)

theorem executeAll (parallel : Executes execute executeToo) : ∀ {pairing after : Pairing} {env envToo : Env}
    {ss ssToo : List Stmt}, Env.Counterpart pairing env envToo → Stmt.AlphaAll pairing ss ssToo after → ∀ made,
    Parallel Flow.Counterpart made (executeAll execute env ss) (executeAll executeToo envToo ssToo)
  | _, _, _, _, _, _, _, .nil _, _ => done fun _ _ => .normal
  | _, _, _, _, _, _, around, .cons head tail, made => by
      refine (parallel around head made).bind ?_
      rintro more grows ⟨flow, env⟩ ⟨flowToo, envToo⟩ ⟨same, behind⟩
      dsimp only at same behind
      cases same with
      | normal => exact executeAll parallel behind tail more
      | returned same => exact done fun later growsLater => .returned (same.mono growsLater)

theorem call (parallel : Executes execute executeToo) (depth line : Nat) {callee calleeToo : Value}
    (sameCallee : callee.Counterpart made calleeToo) {arguments argumentsToo : List Value}
    (same : List.Forall₂ (Value.Counterpart made) arguments argumentsToo) :
    Parallel Value.Counterpart made (call execute depth line callee arguments)
      (call executeToo depth line calleeToo argumentsToo) := by
  intro more grows store storeToo stores
  unfold Cells.call
  rw [← same.length_eq]
  cases sameCallee with
  | @closure identity name index pairing inner after parameters parametersToo body bodyToo declared together inside =>
      have arity : (Callable.closure ⟨name, parameters, body, index⟩).arity = parameters.length := rfl
      have arityToo : (Callable.closure ⟨name, parametersToo, bodyToo, index⟩).arity = parameters.length :=
        together.length_eq
      dsimp only
      rw [stores.host, arity, arityToo]
      split
      · exact fail _ line more List.prefix_rfl store storeToo stores
      · rename_i full
        split
        · exact fail _ line more List.prefix_rfl store storeToo stores
        · refine Parallel.bind (capturedBy rfl declared) ?_ more grows store storeToo stores
          intro middle growsMiddle env envToo around
          have same := same.imp fun _ _ same => same.mono growsMiddle
          refine (bindParameters together same (not_not.mp full) around.enter).bind ?_
          intro later growsLater innermost innermostToo around
          exact (executeAll parallel around inside later).bind fun _ _ _ _ sameFlow =>
            done fun _ growsLast => sameFlow.result.mono growsLast
  | plain notClosure =>
      cases callee with
      | function identity callable =>
          cases callable with
          | closure closure => cases notClosure
          | builtin builtin =>
              dsimp only
              rw [stores.host]
              split
              · exact fail _ line more List.prefix_rfl store storeToo stores
              · split
                · exact fail _ line more List.prefix_rfl store storeToo stores
                · rcases builtin.apply_similar (fun _ _ => Value.Counterpart.similar) (fun _ => .plain)
                      store.host.reading (same.imp fun _ _ same => same.mono grows) with
                    ⟨message, applied, appliedToo⟩ | ⟨result, other, applied, appliedToo, sameResult⟩
                  · rw [applied, appliedToo]
                    exact fail _ line more List.prefix_rfl store.tick storeToo.tick stores.tick
                  · rw [applied, appliedToo]
                    exact .done List.prefix_rfl sameResult stores.tick
      | _ => exact fail _ line more List.prefix_rfl store storeToo stores

theorem openLoop (parallel : Executes execute executeToo) {pairing inner : Pairing} {env envToo : Env}
    {first firstToo : Option Stmt} (around : Env.Counterpart pairing env envToo)
    (alpha : Stmt.Alpha? pairing first firstToo inner) :
    Parallel (Always (Env.Counterpart inner)) made (openLoop execute env first)
      (openLoop executeToo envToo firstToo) := by
  cases alpha with
  | none _ => exact done fun _ _ => around
  | some present => exact (parallel around present made).bind fun _ _ _ _ left => done fun _ _ => left.2

theorem turn {after : Pairing} {condition conditionToo : Run Bool} {body bodyToo : Run (Flow × Env)}
    {increment incrementToo : Run Unit} {again againToo : Run Flow}
    (parallelCondition : ∀ made, Parallel (Always Eq) made condition conditionToo)
    (parallelBody : ∀ made, Parallel (LeaveBehind after) made body bodyToo)
    (parallelIncrement : ∀ made, Parallel (Always Eq) made increment incrementToo)
    (parallelAgain : ∀ made, Parallel Flow.Counterpart made again againToo) :
    Parallel Flow.Counterpart made (turn condition body increment again)
      (turn conditionToo bodyToo incrementToo againToo) := by
  refine (parallelCondition made).bind ?_
  rintro more grows goOn _ rfl
  cases goOn with
  | false => exact done fun _ _ => .normal
  | true =>
      refine (parallelBody more).bind ?_
      rintro later growsLater ⟨flow, env⟩ ⟨flowToo, envToo⟩ ⟨same, _⟩
      dsimp only at same
      cases same with
      | returned same => exact done fun _ growsLast => .returned (same.mono growsLast)
      | normal => exact (parallelIncrement later).bind fun last _ _ _ _ => parallelAgain last

end

end Parallel

end Cells

end ScopedScript
