import ScopedScript.Proofs.Desugaring.ForLoops
import ScopedScript.Proofs.Scoping.CellEvaluator
namespace ScopedScript

/-!
# How the evaluator runs a `for` that is written as `while`

A round of the `while` does what a round of the `for` does, except that its parts lie deeper and so have less
fuel.  There are three reasons why the evaluator with cells does nothing else: the initializer of a `for` always
ends normally; its body declares nothing, so that the increment finds the names that it would find in the
`for`; and a block within a block begins with the map of its surroundings.
-/

namespace Cells

namespace Run

variable {α β : Type}

/-- Whatever result a run comes to, it is a good one. -/
def Gives (good : α → Prop) (run : Run α) : Prop :=
  ∀ store result after, run store = (.done result, after) → good result

theorem Gives.done {good : α → Prop} {result : α} (isGood : good result) : Gives good (pure result) := by
  intro store another after ran
  cases ran
  exact isGood

theorem Gives.bind {good : α → Prop} {better : β → Prop} {first : Run α} {next : α → Run β}
    (gives : Gives good first) (givesNext : ∀ result, good result → Gives better (next result)) :
    Gives better (first >>= next) := by
  intro store result after ran
  change first.andThen next store = _ at ran
  unfold andThen at ran
  rcases began : first store with ⟨outcome, middle⟩
  rw [began] at ran
  cases outcome with
  | done early => exact givesNext early (gives store early middle began) middle result after ran
  | failed error => cases ran
  | unfinished => cases ran

theorem Gives.anything (run : Run α) : Gives (fun _ => True) run := fun _ _ _ _ => trivial

/-- What comes next need only be right for the results that there can be. -/
theorem bind_congr {good : α → Prop} {first : Run α} {next nextToo : α → Run β} (gives : Gives good first)
    (same : ∀ result, good result → next result = nextToo result) : first >>= next = first >>= nextToo := by
  funext store
  change first.andThen next store = first.andThen nextToo store
  unfold andThen
  rcases began : first store with ⟨outcome, middle⟩
  cases outcome with
  | done result => exact congrFun (same result (gives store result middle began)) middle
  | failed error => rfl
  | unfinished => rfl

theorem bind_pure (run : Run α) : run >>= pure = run := by
  funext store
  change run.andThen pure store = run store
  unfold andThen
  rcases run store with ⟨outcome, after⟩
  cases outcome <;> rfl

end Run

variable {fuel depth : Nat} {env : Env}

theorem Env.enter_enter (env : Env) : env.enter.enter = env.enter := by
  cases env <;> rfl

/-! ## What statements leave -/

/-- A declaration makes no block the top level. -/
theorem declare_gives (inner : env.enter = env) (name : String) :
    Run.Gives (fun left => left.enter = left) (declare env name) := by
  intro store left after ran
  cases env with
  | topLevel => cases inner
  | inside names =>
      cases ran
      rfl

/-- What declares nothing leaves the map as it was. -/
theorem execute_gives_env {s : Stmt} (formed : s.WellFormed) (nothing : s.declares = false) :
    Run.Gives (fun left => left.2 = env) (execute fuel depth env s) := by
  induction fuel generalizing s with
  | zero =>
      intro store left after ran
      cases ran
  | succ fuel inductionHypothesis =>
      cases s with
      | declare target initializer => cases nothing
      | function target parameters body => cases nothing
      | branch condition whenTrue whenFalse =>
          rcases formed with ⟨_, trueFormed, trueNothing, _, falseFormed⟩
          refine (Run.Gives.anything _).bind fun value _ => ?_
          split
          · exact inductionHypothesis trueFormed trueNothing
          · cases whenFalse with
            | none => exact .done rfl
            | some other => exact inductionHypothesis falseFormed.1 falseFormed.2
      | forLoop first condition increment body =>
          refine (Run.Gives.anything _).bind fun _ _ => ?_
          exact (Run.Gives.anything _).bind fun _ _ => .done rfl
      | _ => exact (Run.Gives.anything _).bind fun _ _ => .done rfl

/-- The initializer of a `for` gives no value back, and the loop is not at the top level. -/
theorem initializer_gives {first : Stmt} (begins : Stmt.InitializerWellFormed (some first))
    (inner : env.enter = env) :
    Run.Gives (fun left => left.1 = .normal ∧ left.2.enter = left.2) (execute fuel depth env first) := by
  cases fuel with
  | zero =>
      intro store left after ran
      cases ran
  | succ fuel =>
      cases first with
      | expression value => exact (Run.Gives.anything _).bind fun _ _ => .done ⟨rfl, inner⟩
      | declare target initializer =>
          refine (declare_gives inner target.name).bind fun after isInner => ?_
          refine (Run.Gives.anything _).bind fun value _ => ?_
          exact (Run.Gives.anything _).bind fun _ _ => .done ⟨rfl, isInner⟩
      | _ => cases begins

theorem openLoop_gives {first : Option Stmt} (begins : Stmt.InitializerWellFormed first)
    (inner : env.enter = env) :
    Run.Gives (fun left => left.enter = left) (openLoop (execute fuel depth) env first) := by
  cases first with
  | none => exact .done inner
  | some first => exact (initializer_gives begins inner).bind fun left good => .done good.2

/-! ## Lists of statements -/

/-- What stands behind an initializer goes on with the map that it leaves. -/
theorem executeAll_initializer {first : Option Stmt} (begins : Stmt.InitializerWellFormed first)
    (inner : env.enter = env) (rest : List Stmt) :
    executeAll (execute fuel depth) env (first.toList ++ rest) =
      openLoop (execute fuel depth) env first >>= fun left => executeAll (execute fuel depth) left rest := by
  cases first with
  | none => rfl
  | some first =>
      change (execute fuel depth env first >>= _) = (execute fuel depth env first >>= _) >>= _
      rw [Run.bind_assoc]
      refine Run.bind_congr (initializer_gives begins inner) ?_
      rintro ⟨flow, left⟩ ⟨normal, _⟩
      dsimp only at normal
      subst normal
      rfl

/-- An increment is evaluated with one less to spend. -/
theorem executeAll_increment (increment : Option Expr) :
    executeAll (execute fuel depth) env (increment.map Stmt.expression).toList =
      advance (evaluate (fuel - 1) depth env) increment >>= fun _ => pure .normal := by
  cases increment with
  | none => rfl
  | some increment =>
      cases fuel with
      | zero => rfl
      | succ fuel =>
          change ((evaluate fuel depth env increment >>= _) >>= _) =
            (evaluate fuel depth env increment >>= _) >>= _
          rw [Run.bind_assoc, Run.bind_assoc]
          rfl

theorem executeAll_singleton (s : Stmt) :
    executeAll (execute fuel depth) env [s] = execute fuel depth env s >>= fun left => pure left.1 := by
  refine Run.bind_congr (Run.Gives.anything _) ?_
  rintro ⟨flow, left⟩ _
  cases flow <;> rfl

theorem execute_whileLoop (condition : Expr) (body : Stmt) :
    (execute fuel depth env (.whileLoop condition body) >>= fun left => pure left.1) =
      round (evaluate (fuel - 1) depth env) (execute (fuel - 1) depth env)
        (loop (fuel - 1) depth env ⟨some condition, none, body⟩) ⟨some condition, none, body⟩ := by
  cases fuel with
  | zero => rfl
  | succ fuel =>
      change ((round _ _ _ _ >>= _) >>= _) = _
      rw [Run.bind_assoc]
      exact Run.bind_pure _

/-! ## Rounds -/

/-- One round of a loop, given its parts, and what comes after it. -/
def turn (condition : Run Bool) (body : Run (Flow × Env)) (increment : Run Unit) (again : Run Flow) :
    Run Flow := do
  let goOn ← condition
  if goOn then
    let (flow, _) ← body
    match flow with
    | .returned value => return .returned value
    | .normal => do
      increment
      again
  else return .normal

theorem round_eq_turn (evaluate : Expr → Run Value) (execute : Stmt → Run (Flow × Env)) (again : Run Flow)
    (whole : Loop) :
    round evaluate execute again whole =
      turn (goesOn evaluate whole.condition) (execute whole.body) (advance evaluate whole.increment) again := rfl

end Cells

/-- The loop of a `for` that is written as `while`. -/
def Loop.asWhile (condition increment : Option Expr) (body : Stmt) : Loop :=
  ⟨some (condition.getD (.constant (.truth true))), none,
    .block (body :: (increment.map Stmt.expression).toList)⟩

namespace Cells

section

variable {condition increment : Option Expr} {body : Stmt}

theorem goesOn_getD :
    goesOn (evaluate (fuel + 1) depth env) (some (condition.getD (.constant (.truth true)))) =
      goesOn (evaluate (fuel + 1) depth env) condition := by
  cases condition <;> rfl

/-- The body and the increment are executed one after the other, with the same map. -/
theorem execute_asWhile_body (formed : body.WellFormed) (nothing : body.declares = false)
    (inner : env.enter = env) {next : Flow × Env → Run Flow} (again : Run Flow)
    (returns : ∀ value left, next (.returned value, left) = pure (.returned value))
    (goesAgain : ∀ left, next (.normal, left) = again) :
    (execute (fuel + 1) depth env (Loop.asWhile condition increment body).body >>= next) =
      execute fuel depth env body >>= fun left =>
        match left with
        | (.returned value, _) => pure (.returned value)
        | (.normal, _) => advance (evaluate (fuel - 1) depth env) increment >>= fun _ => again := by
  change (((execute fuel depth env.enter body >>= _) >>= _) >>= _) = _
  rw [inner, Run.bind_assoc, Run.bind_assoc]
  -- The increment is evaluated with the map that the body leaves, which has to be the one around the loop.
  refine Run.bind_congr (execute_gives_env formed nothing) ?_
  rintro ⟨flow, left⟩ same
  dsimp only at same
  subst same
  cases flow with
  | returned value => exact returns value left
  | normal =>
      change (executeAll (execute fuel depth) left _ >>= fun flow => pure (flow, left) >>= next) = _
      rw [executeAll_increment, Run.bind_assoc]
      refine Run.bind_congr (Run.Gives.anything _) fun _ _ => ?_
      exact goesAgain left

/-- A round of the `while` is a round of the `for`, with less to spend on the body and the increment. -/
theorem round_asWhile (formed : body.WellFormed) (nothing : body.declares = false) (inner : env.enter = env)
    (again : Run Flow) :
    round (evaluate fuel depth env) (execute fuel depth env) again (Loop.asWhile condition increment body) =
      turn (goesOn (evaluate fuel depth env) condition) (execute (fuel - 1) depth env body)
        (advance (evaluate (fuel - 2) depth env) increment) again := by
  cases fuel with
  | zero =>
      -- The `while` is stopped by its condition, the `for` by its body if it has no condition.
      cases condition <;> rfl
  | succ fuel =>
      rw [round_eq_turn]
      change turn (goesOn _ (some (condition.getD _))) _ _ _ = _
      rw [goesOn_getD]
      refine Run.bind_congr (Run.Gives.anything _) fun goOn _ => ?_
      cases goOn with
      | false => rfl
      | true =>
          refine (execute_asWhile_body formed nothing inner again ?_ ?_).trans ?_
          · exact fun _ _ => rfl
          · exact fun _ => rfl
          · refine Run.bind_congr (Run.Gives.anything _) ?_
            rintro ⟨flow, left⟩ _
            cases flow <;> rfl

/-- The `while` runs as the `for` does, with less to spend on its rounds. -/
theorem execute_asWhile {first : Option Stmt} (begins : Stmt.InitializerWellFormed first) :
    execute (fuel + 1) depth env (Stmt.asWhile first condition increment body) =
      openLoop (execute fuel depth) env.enter first >>= fun inner =>
        round (evaluate (fuel - 1) depth inner) (execute (fuel - 1) depth inner)
          (loop (fuel - 1) depth inner (Loop.asWhile condition increment body))
          (Loop.asWhile condition increment body) >>= fun flow => pure (flow, env) := by
  change (executeAll (execute fuel depth) env.enter (first.toList ++ _) >>= _) = _
  rw [executeAll_initializer begins env.enter_enter, Run.bind_assoc]
  refine Run.bind_congr (Run.Gives.anything _) fun left _ => ?_
  rw [executeAll_singleton, execute_whileLoop]
  rfl

end

end Cells

end ScopedScript
