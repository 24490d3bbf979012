import ScopedScript.Proofs.Desugaring.Following
namespace ScopedScript

/-!
# Variants run alike

With four times the fuel a program comes to where a variant of it comes.  Each nesting of statements costs one
unit of fuel, and a `while` that stands for a `for` has up to three more on the way from the loop to its parts:
the block with the initializer, the block with the body, and the statement of the increment.

The induction is on the fuel of the program that leads.  It has to be known for all smaller fuels, since a
`for` that follows a `while` finds the parts of the loop where less fuel is left.
-/

namespace Cells

namespace Leads

/-! ## Parts in order -/

section

variable {evaluate evaluateToo : Expr → Run Value}

theorem evaluateAll (leads : ∀ e, Leads Value.Varies (evaluate e) (evaluateToo e)) (es : List Expr) :
    Leads (List.Forall₂ Value.Varies) (evaluateAll evaluate es) (evaluateAll evaluateToo es) := by
  induction es with
  | nil => exact done .nil
  | cons first rest inductionHypothesis =>
      refine (leads first).bind fun value other same => ?_
      exact inductionHypothesis.bind fun values others sameAll => done (.cons same sameAll)

theorem printAll (leads : ∀ e, Leads Value.Varies (evaluate e) (evaluateToo e)) (line : Nat) (es : List Expr) :
    Leads Eq (printAll evaluate line es) (printAll evaluateToo line es) := by
  induction es with
  | nil => exact done rfl
  | cons first rest inductionHypothesis =>
      refine (leads first).bind fun value other same => ?_
      exact (printLine line same).bind fun _ _ _ => inductionHypothesis

theorem evaluate? (leads : ∀ e, Leads Value.Varies (evaluate e) (evaluateToo e)) (e : Option Expr) :
    Leads Value.Varies (evaluate? evaluate e) (evaluate? evaluateToo e) := by
  cases e with
  | none => exact done (.refl _)
  | some e => exact leads e

theorem goesOn (leads : ∀ e, Leads Value.Varies (evaluate e) (evaluateToo e)) (condition : Option Expr) :
    Leads Eq (goesOn evaluate condition) (goesOn evaluateToo condition) := by
  cases condition with
  | none => exact done rfl
  | some condition => exact (leads condition).bind fun value other same => done same.similar.isTruthy_eq

theorem advance (leads : ∀ e, Leads Value.Varies (evaluate e) (evaluateToo e)) (increment : Option Expr) :
    Leads Eq (advance evaluate increment) (advance evaluateToo increment) := by
  cases increment with
  | none => exact done rfl
  | some increment => exact (leads increment).bind fun value other same => done rfl

end

section

variable {execute executeToo : Env → Stmt → Run (Flow × Env)}

theorem executeAll (leads : ∀ env s t, s.Varies t → Leads Leaves (execute env s) (executeToo env t))
    {ss ts : List Stmt} (varyAll : Stmt.VaryAll ss ts) (env : Env) :
    Leads Flow.Varies (executeAll execute env ss) (executeAll executeToo env ts) := by
  induction ss generalizing ts env with
  | nil =>
      cases varyAll
      exact done .normal
  | cons first rest inductionHypothesis =>
      cases varyAll with
      | cons head tail =>
          refine (leads env _ _ head).bind ?_
          rintro ⟨flow, after⟩ ⟨flowToo, afterToo⟩ ⟨same, sameEnv⟩
          dsimp only at same sameEnv
          subst sameEnv
          cases same with
          | normal => exact inductionHypothesis tail afterToo
          | returned varies => exact done (.returned varies)

/-- Calls of variants lead to each other when their bodies do. -/
theorem call (leads : ∀ env s t, s.Varies t → Leads Leaves (execute env s) (executeToo env t))
    (depth line : Nat) {callee calleeToo : Value} (sameCallee : callee.Varies calleeToo)
    {arguments others : List Value} (same : List.Forall₂ Value.Varies arguments others) :
    Leads Value.Varies (call execute depth line callee arguments)
      (call executeToo depth line calleeToo others) where
  appends := .call (fun env s => (leads env s s (.refl s)).appends) depth line calleeToo others
  attains store storeToo varies := by
    unfold Cells.call
    rw [← same.length_eq]
    cases sameCallee with
    | @closure identity name parameters body bodyToo index inside =>
        have arity : (Callable.closure ⟨name, parameters, body, index⟩).arity = parameters.length := rfl
        have arityToo : (Callable.closure ⟨name, parameters, bodyToo, index⟩).arity = parameters.length := rfl
        dsimp only
        rw [varies.host, arity, arityToo]
        split
        · exact (fail _ line).attains store storeToo varies
        · split
          · exact (fail _ line).attains store storeToo varies
          · refine Leads.attains ?_ store storeToo varies
            refine (capturedBy _ _ rfl).bind ?_
            rintro env _ rfl
            refine (bindParameters parameters same env.enter).bind ?_
            rintro inner _ rfl
            exact (executeAll leads inside inner).bind fun flow flowToo sameFlow => done sameFlow.result
    | plain notClosure =>
        cases callee with
        | function identity callable =>
            cases callable with
            | closure closure => cases notClosure
            | builtin builtin =>
                dsimp only
                rw [varies.host]
                split
                · exact (fail _ line).attains store storeToo varies
                · split
                  · exact (fail _ line).attains store storeToo varies
                  · rcases builtin.apply_similar (fun _ _ => Value.Varies.similar) (fun _ => .plain)
                        store.host.reading same with
                      ⟨message, applied, appliedToo⟩ | ⟨result, other, applied, appliedToo, sameResult⟩
                    · rw [applied, appliedToo]
                      exact (fail _ line).attains store.tick storeToo.tick varies.tick
                    · rw [applied, appliedToo]
                      exact (done sameResult).attains store.tick storeToo.tick varies.tick
        | _ => exact (fail _ line).attains store storeToo varies

theorem openLoop (leads : ∀ env s t, s.Varies t → Leads Leaves (execute env s) (executeToo env t)) (env : Env)
    (first : Option Stmt) : Leads Eq (openLoop execute env first) (openLoop executeToo env first) := by
  cases first with
  | none => exact done rfl
  | some first => exact (leads env first first (.refl first)).bind fun left leftToo same => done same.2.symm

theorem turn {condition conditionToo : Run Bool} {body bodyToo : Run (Flow × Env)}
    {increment incrementToo : Run Unit} {again againToo : Run Flow} (leadsCondition : Leads Eq condition conditionToo)
    (leadsBody : Leads Leaves body bodyToo) (leadsIncrement : Leads Eq increment incrementToo)
    (leadsAgain : Leads Flow.Varies again againToo) :
    Leads Flow.Varies (turn condition body increment again)
      (turn conditionToo bodyToo incrementToo againToo) := by
  refine leadsCondition.bind ?_
  rintro goOn _ rfl
  cases goOn with
  | false => exact done .normal
  | true =>
      refine leadsBody.bind ?_
      rintro ⟨flow, after⟩ ⟨flowToo, afterToo⟩ ⟨same, _⟩
      dsimp only at same
      cases same with
      | returned varies => exact done (.returned varies)
      | normal => exact leadsIncrement.bind fun _ _ _ => leadsAgain

end

end Leads

end Cells

/-! ## Loops -/

/-- Two loops inside a map that differ in their form. -/
inductive Loop.Varies (env : Cells.Env) : Loop → Loop → Prop where
  | same (condition increment : Option Expr) {body bodyToo : Stmt} (inside : body.Varies bodyToo) :
      Varies env ⟨condition, increment, body⟩ ⟨condition, increment, bodyToo⟩
  | unfolded (condition increment : Option Expr) {body bodyToo : Stmt} (inner : env.enter = env)
      (formed : bodyToo.WellFormed) (nothing : bodyToo.declares = false) (inside : body.Varies bodyToo) :
      Varies env ⟨condition, increment, body⟩ (Loop.asWhile condition increment bodyToo)
  | folded (condition increment : Option Expr) {body bodyToo : Stmt} (inner : env.enter = env)
      (formed : body.WellFormed) (nothing : body.declares = false) (inside : body.Varies bodyToo) :
      Varies env (Loop.asWhile condition increment body) ⟨condition, increment, bodyToo⟩

namespace Cells

/-- With so much fuel on this side and so much on the other, variants lead to each other. -/
structure Following (fuel fuelToo : Nat) : Prop where
  evaluate : ∀ depth env e, Leads Value.Varies (evaluate fuel depth env e) (evaluate fuelToo depth env e)
  execute : ∀ depth env s t, s.Varies t → Leads Leaves (execute fuel depth env s) (execute fuelToo depth env t)
  loop : ∀ depth env whole wholeToo, whole.Varies env wholeToo →
    Leads Flow.Varies (loop fuel depth env whole) (loop fuelToo depth env wholeToo)

/-- Variants lead to each other with any less fuel on this side, and with so much less on the other. -/
def Prepared (slack fuel fuelToo : Nat) : Prop :=
  ∀ less lessToo, less ≤ fuel → fuelToo ≤ lessToo + slack → Following less lessToo

variable {fuel fuelToo depth : Nat} {env : Env}

theorem Prepared.mono {slack slackToo more moreToo : Nat} (prepared : Prepared slack fuel fuelToo)
    (less : more ≤ fuel) (lessToo : fuelToo + slackToo ≤ moreToo + slack) : Prepared slackToo more moreToo :=
  fun small smallToo below belowToo => prepared small smallToo (by omega) (by omega)

theorem Prepared.following {slack : Nat} (prepared : Prepared slack fuel fuelToo) : Following fuel fuelToo :=
  prepared fuel fuelToo (Nat.le_refl fuel) (Nat.le_add_right fuelToo slack)

/-- The rounds of a loop lead to those of a variant, of which the parts may be two levels deeper. -/
theorem Prepared.rounds (prepared : Prepared 2 fuel fuelToo) (depth : Nat) {whole wholeToo : Loop}
    (varies : whole.Varies env wholeToo) :
    Leads Flow.Varies
      (round (evaluate fuel depth env) (execute fuel depth env) (loop fuel depth env whole) whole)
      (round (evaluate fuelToo depth env) (execute fuelToo depth env) (loop fuelToo depth env wholeToo)
        wholeToo) := by
  have here := prepared.following
  have again := here.loop depth env whole wholeToo varies
  cases varies with
  | same condition increment inside =>
      rw [round_eq_turn, round_eq_turn]
      exact .turn (.goesOn (here.evaluate depth env) condition) (here.execute depth env _ _ inside)
        (.advance (here.evaluate depth env) increment) again
  | unfolded condition increment inner formed nothing inside =>
      rw [round_asWhile formed nothing inner, round_eq_turn]
      have body := prepared fuel (fuelToo - 1) (Nat.le_refl fuel) (by omega)
      have last := prepared fuel (fuelToo - 2) (Nat.le_refl fuel) (by omega)
      exact .turn (.goesOn (here.evaluate depth env) condition) (body.execute depth env _ _ inside)
        (.advance (last.evaluate depth env) increment) again
  | folded condition increment inner formed nothing inside =>
      rw [round_asWhile formed nothing inner, round_eq_turn]
      have body := prepared (fuel - 1) fuelToo (by omega) (by omega)
      have last := prepared (fuel - 2) fuelToo (by omega) (by omega)
      exact .turn (.goesOn (here.evaluate depth env) condition) (body.execute depth env _ _ inside)
        (.advance (last.evaluate depth env) increment) again

/-! ## Evaluation -/

theorem Following.evaluate_succ (here : Following fuel fuelToo) (depth : Nat) (env : Env) (e : Expr) :
    Leads Value.Varies (Cells.evaluate (fuel + 1) depth env e) (Cells.evaluate (fuelToo + 1) depth env e) := by
  have part := here.evaluate depth env
  cases e with
  | constant value => exact .done (.refl _)
  | group inner => exact part inner
  | unary op line operand =>
      refine (part operand).bind fun value other same => ?_
      rw [op.apply_similar same.similar]
      exact .deliver line _
  | binary op line left right =>
      refine (part left).bind fun leftValue leftOther sameLeft => ?_
      refine (part right).bind fun rightValue rightOther sameRight => ?_
      rw [op.apply_similar sameLeft.similar sameRight.similar]
      exact .deliver line _
  | logical op left right =>
      refine (part left).bind fun value other same => ?_
      rw [op.isDecidedBy_eq same.similar]
      split
      · exact .done same
      · exact part right
  | «variable» ref target => exact .read env target
  | assign ref target value =>
      refine (part value).bind fun result other same => ?_
      exact (Leads.write env target same).bind fun _ _ _ => .done same
  | call callee line arguments =>
      refine (part callee).bind fun function functionToo same => ?_
      refine (Leads.evaluateAll part arguments).bind fun values others sameAll => ?_
      exact .call (here.execute (depth + 1)) depth line same sameAll

/-- The initializer and the rounds of a loop lead to those of a variant, whatever fuel is left for the rounds. -/
theorem Prepared.opened {less lessToo : Nat} (prepared : Prepared 2 less lessToo)
    (here : Following fuel fuelToo) {first : Option Stmt} (begins : Stmt.InitializerWellFormed first)
    {whole wholeToo : Loop} (varies : ∀ inner : Env, inner.enter = inner → whole.Varies inner wholeToo) :
    Leads Leaves
      (openLoop (execute fuel depth) env.enter first >>= fun inner =>
        round (evaluate less depth inner) (execute less depth inner) (loop less depth inner whole) whole >>=
          fun flow => pure (flow, env))
      (openLoop (execute fuelToo depth) env.enter first >>= fun inner =>
        round (evaluate lessToo depth inner) (execute lessToo depth inner) (loop lessToo depth inner wholeToo)
          wholeToo >>= fun flow => pure (flow, env)) := by
  have opened := Leads.openLoop (here.execute depth) env.enter first
  refine opened.andThen (openLoop_gives begins env.enter_enter) ?_ fun inner => ?_
  · rintro inner _ rfl isInner
    exact (prepared.rounds depth (varies inner isInner)).bind fun _ _ same => .done ⟨same, rfl⟩
  · have appends := appending lessToo
    refine Run.Appends.bind ?_ fun _ => .done _
    exact .round (appends.evaluate depth inner) (appends.execute depth inner) (appends.loop depth inner _) _

theorem Prepared.execute_succ (prepared : Prepared 3 fuel fuelToo) (depth : Nat) (env : Env) {s t : Stmt}
    (varies : s.Varies t) :
    Leads Leaves (execute (fuel + 1) depth env s) (execute (fuelToo + 1) depth env t) := by
  have here := prepared.following
  have part := here.execute depth
  have level : Prepared 2 fuel fuelToo := prepared.mono (Nat.le_refl fuel) (by omega)
  cases varies with
  | expression value => exact (here.evaluate depth env value).bind fun _ _ _ => .done ⟨.normal, rfl⟩
  | print line values =>
      exact (Leads.printAll (here.evaluate depth env) line values).bind fun _ _ _ => .done ⟨.normal, rfl⟩
  | declare target initializer =>
      refine (Leads.declare env target.name).bind ?_
      rintro inner _ rfl
      refine (Leads.evaluate? (here.evaluate depth inner) initializer).bind fun value other same => ?_
      exact (Leads.define inner target.name same).bind fun _ _ _ => .done ⟨.normal, rfl⟩
  | block inside => exact (Leads.executeAll part inside env.enter).bind fun _ _ same => .done ⟨same, rfl⟩
  | branch condition ifTrue ifFalse =>
      refine (here.evaluate depth env condition).bind fun value other same => ?_
      rw [same.similar.isTruthy_eq]
      split
      · exact part env _ _ ifTrue
      · cases ifFalse with
        | none => exact .done ⟨.normal, rfl⟩
        | some present => exact part env _ _ present
  | whileLoop condition inside =>
      exact (level.rounds depth (.same (some condition) none inside)).bind fun _ _ same => .done ⟨same, rfl⟩
  | forLoop first condition increment inside =>
      refine (Leads.openLoop part env.enter first).bind ?_
      rintro inner _ rfl
      exact (level.rounds depth (.same condition increment inside)).bind fun _ _ same => .done ⟨same, rfl⟩
  | unfolded condition increment begins formed nothing inside =>
      rw [execute_asWhile begins]
      have deeper : Prepared 2 fuel (fuelToo - 1) := prepared.mono (Nat.le_refl fuel) (by omega)
      exact deeper.opened here begins fun inner isInner =>
        .unfolded condition increment isInner formed nothing inside
  | folded condition increment begins formed nothing inside =>
      rw [execute_asWhile begins]
      have deeper : Prepared 2 (fuel - 1) fuelToo := prepared.mono (by omega) (by omega)
      exact deeper.opened here begins fun inner isInner =>
        .folded condition increment isInner formed nothing inside
  | function target parameters inside =>
      refine (Leads.declare env target.name).bind ?_
      rintro inner _ rfl
      refine (Leads.close inner target.name parameters inside).bind fun value other same => ?_
      exact (Leads.define inner target.name same).bind fun _ _ _ => .done ⟨.normal, rfl⟩
  | giveBack line value =>
      exact (Leads.evaluate? (here.evaluate depth env) value).bind fun _ _ same => .done ⟨.returned same, rfl⟩

/-- Four times the fuel is enough to follow a variant. -/
theorem following (fuel : Nat) : ∀ fuelToo, 4 * fuel ≤ fuelToo → Following fuel fuelToo := by
  induction fuel using Nat.strongRecOn with
  | ind fuel inductionHypothesis =>
      intro fuelToo enough
      have appends := appending fuelToo
      cases fuel with
      | zero =>
          refine ⟨fun depth env e => ?_, fun depth env s t _ => ?_, fun depth env whole wholeToo _ => ?_⟩
          · exact .outOfFuel (appends.evaluate depth env e)
          · exact .outOfFuel (appends.execute depth env t)
          · exact .outOfFuel (appends.loop depth env wholeToo)
      | succ fuel =>
          obtain ⟨fuelToo, rfl⟩ : ∃ less, fuelToo = less + 1 := ⟨fuelToo - 1, by omega⟩
          -- One unit on this side pays for four on the other, one of them for the nesting that both have.
          have prepared : Prepared 3 fuel fuelToo := fun less lessToo below belowToo =>
            inductionHypothesis less (by omega) lessToo (by omega)
          have level : Prepared 2 fuel fuelToo := prepared.mono (Nat.le_refl fuel) (by omega)
          refine ⟨prepared.following.evaluate_succ, fun depth env s t => prepared.execute_succ depth env, ?_⟩
          exact fun depth env whole wholeToo => level.rounds depth

end Cells

end ScopedScript
