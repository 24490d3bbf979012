import ScopedScript.Proofs.Machine.Output
import ScopedScript.Proofs.Scoping.CellEvaluator
namespace ScopedScript

/-!
# The evaluator with cells only appends

What has been printed stays printed in the evaluator as well.  Printing a line is the only thing that touches
the sink, and everything else is put together from runs that do not.
-/

namespace Cells

/-- A run takes nothing back that has been printed before it. -/
def Run.Appends {α : Type} (run : Run α) : Prop :=
  ∀ store : Store, store.sink.Precedes (run store).2.sink

namespace Run.Appends

variable {α β : Type}

theorem done (result : α) : (pure result : Run α).Appends := fun _ => .refl _

theorem fail (cause : RuntimeCause) (line : Nat) : (Run.fail cause line : Run α).Appends := fun _ => .refl _

theorem outOfFuel : (Run.outOfFuel : Run α).Appends := fun _ => .refl _

theorem bind {first : Run α} {next : α → Run β} (appends : first.Appends)
    (appendsNext : ∀ result, (next result).Appends) : (first >>= next).Appends := by
  intro store
  have before := appends store
  change store.sink.Precedes (first.andThen next store).2.sink
  unfold Run.andThen
  generalize first store = ran at before ⊢
  rcases ran with ⟨outcome, after⟩
  cases outcome with
  | done result => exact before.trans (appendsNext result after)
  | failed error => exact before
  | unfinished => exact before

/-! ## Names, functions and printing -/

theorem declare (env : Env) (name : String) : (declare env name).Appends := by
  intro store
  cases env <;> exact .refl _

theorem define (env : Env) (name : String) (value : Value) : (define env name value).Appends := by
  intro store
  unfold Cells.define
  split <;> exact .refl _

theorem read (env : Env) (target : Identifier) : (read env target).Appends := by
  intro store
  unfold Cells.read
  split
  · exact .refl _
  · split <;> exact .refl _

theorem write (env : Env) (target : Identifier) (value : Value) : (write env target value).Appends := by
  intro store
  unfold Cells.write
  split
  · exact .refl _
  · split <;> exact .refl _

theorem bindParameters (parameters : List Identifier) (arguments : List Value) (env : Env) :
    (bindParameters parameters arguments env).Appends := by
  induction parameters generalizing arguments env with
  | nil => exact done env
  | cons parameter rest inductionHypothesis =>
      cases arguments with
      | nil => exact done env
      | cons argument others =>
          refine (declare env parameter.name).bind fun inner => ?_
          exact (define inner parameter.name argument).bind fun _ => inductionHypothesis others inner

theorem close (env : Env) (name : String) (parameters : List Identifier) (body : List Stmt) :
    (close env name parameters body).Appends := fun _ => .refl _

theorem capturedBy (closure : Closure) : (capturedBy closure).Appends := fun _ => .refl _

theorem deliver (line : Nat) (result : Except RuntimeCause Value) : (deliver line result).Appends := by
  cases result with
  | ok value => exact done value
  | error cause => exact fail cause line

theorem printLine (line : Nat) (value : Value) : (printLine line value).Appends := by
  intro store
  have written : store.sink.Precedes (store.sink.writeLine value.render).1 :=
    Sink.Takes.precedes (.inr ⟨_, rfl⟩)
  unfold Cells.printLine
  generalize store.sink.writeLine value.render = ended at written ⊢
  rcases ended with ⟨sink, _ | _⟩ <;> exact written

/-! ## Parts in order -/

variable {evaluate : Expr → Run Value} {execute : Env → Stmt → Run (Flow × Env)}

theorem evaluateAll (appends : ∀ e, (evaluate e).Appends) (es : List Expr) :
    (evaluateAll evaluate es).Appends := by
  induction es with
  | nil => exact done []
  | cons first rest inductionHypothesis =>
      refine (appends first).bind fun value => ?_
      exact inductionHypothesis.bind fun values => done _

theorem printAll (appends : ∀ e, (evaluate e).Appends) (line : Nat) (es : List Expr) :
    (printAll evaluate line es).Appends := by
  induction es with
  | nil => exact done ()
  | cons first rest inductionHypothesis =>
      refine (appends first).bind fun value => ?_
      exact (printLine line value).bind fun _ => inductionHypothesis

theorem evaluate? (appends : ∀ e, (evaluate e).Appends) (e : Option Expr) : (evaluate? evaluate e).Appends := by
  cases e with
  | none => exact done _
  | some e => exact appends e

theorem executeAll (appends : ∀ env s, (execute env s).Appends) (env : Env) (ss : List Stmt) :
    (executeAll execute env ss).Appends := by
  induction ss generalizing env with
  | nil => exact done _
  | cons first rest inductionHypothesis =>
      refine (appends env first).bind ?_
      rintro ⟨flow, after⟩
      cases flow with
      | normal => exact inductionHypothesis after
      | returned value => exact done _

theorem call (appends : ∀ env s, (execute env s).Appends) (depth line : Nat) (callee : Value)
    (arguments : List Value) : (call execute depth line callee arguments).Appends := by
  intro store
  unfold Cells.call
  cases callee with
  | function identity callable =>
      dsimp only
      split
      · exact fail _ line store
      · split
        · exact fail _ line store
        · cases callable with
          | builtin builtin =>
              dsimp only
              split
              · exact done _ store.tick
              · exact fail _ line store.tick
          | closure closure =>
              refine bind (capturedBy closure) (fun env => ?_) store
              refine (bindParameters closure.parameters arguments env.enter).bind fun inner => ?_
              exact (executeAll appends inner closure.body).bind fun flow => done _
  | _ => exact fail _ line store

theorem openLoop (appends : ∀ env s, (execute env s).Appends) (env : Env) (first : Option Stmt) :
    (openLoop execute env first).Appends := by
  cases first with
  | none => exact done env
  | some first => exact (appends env first).bind fun left => done _

theorem goesOn (appends : ∀ e, (evaluate e).Appends) (condition : Option Expr) :
    (goesOn evaluate condition).Appends := by
  cases condition with
  | none => exact done true
  | some condition => exact (appends condition).bind fun value => done _

theorem advance (appends : ∀ e, (evaluate e).Appends) (increment : Option Expr) :
    (advance evaluate increment).Appends := by
  cases increment with
  | none => exact done ()
  | some increment => exact (appends increment).bind fun value => done _

theorem round {execute : Stmt → Run (Flow × Env)} {again : Run Flow} (appends : ∀ e, (evaluate e).Appends)
    (appendsBody : ∀ s, (execute s).Appends) (appendsAgain : again.Appends) (whole : Loop) :
    (round evaluate execute again whole).Appends := by
  refine (goesOn appends whole.condition).bind fun goOn => ?_
  split
  · refine (appendsBody whole.body).bind ?_
    rintro ⟨flow, after⟩
    cases flow with
    | returned value => exact done _
    | normal => exact (advance appends whole.increment).bind fun _ => appendsAgain
  · exact done _

end Run.Appends

/-! ## Evaluation -/

/-- With so much fuel, nothing takes back what has been printed. -/
structure Appending (fuel : Nat) : Prop where
  evaluate : ∀ depth env e, (evaluate fuel depth env e).Appends
  execute : ∀ depth env s, (execute fuel depth env s).Appends
  loop : ∀ depth env whole, (loop fuel depth env whole).Appends

namespace Appending

variable {fuel : Nat}

theorem evaluate_succ (appending : Appending fuel) (depth : Nat) (env : Env) (e : Expr) :
    (Cells.evaluate (fuel + 1) depth env e).Appends := by
  have part := appending.evaluate depth env
  cases e with
  | constant value => exact .done _
  | group inner => exact part inner
  | unary op line operand => exact (part operand).bind fun value => .deliver line _
  | binary op line left right =>
      refine (part left).bind fun leftValue => ?_
      exact (part right).bind fun rightValue => .deliver line _
  | logical op left right =>
      refine (part left).bind fun value => ?_
      split
      · exact .done value
      · exact part right
  | «variable» ref target => exact .read env target
  | assign ref target value =>
      refine (part value).bind fun result => ?_
      exact (Run.Appends.write env target result).bind fun _ => .done result
  | call callee line arguments =>
      refine (part callee).bind fun function => ?_
      refine (Run.Appends.evaluateAll part arguments).bind fun values => ?_
      exact .call (appending.execute (depth + 1)) depth line function values

theorem execute_succ (appending : Appending fuel) (depth : Nat) (env : Env) (s : Stmt) :
    (Cells.execute (fuel + 1) depth env s).Appends := by
  have expression := appending.evaluate depth
  have part := appending.execute depth
  cases s with
  | expression value => exact (expression env value).bind fun _ => .done _
  | print line values => exact (Run.Appends.printAll (expression env) line values).bind fun _ => .done _
  | declare target initializer =>
      refine (Run.Appends.declare env target.name).bind fun inner => ?_
      refine (Run.Appends.evaluate? (expression inner) initializer).bind fun value => ?_
      exact (Run.Appends.define inner target.name value).bind fun _ => .done _
  | block body => exact (Run.Appends.executeAll part env.enter body).bind fun flow => .done _
  | branch condition whenTrue whenFalse =>
      refine (expression env condition).bind fun value => ?_
      split
      · exact part env whenTrue
      · cases whenFalse with
        | none => exact .done _
        | some other => exact part env other
  | whileLoop condition body =>
      refine Run.Appends.bind ?_ fun flow => .done _
      exact .round (expression env) (part env) (appending.loop depth env _) _
  | forLoop first condition increment body =>
      refine (Run.Appends.openLoop part env.enter first).bind fun inner => ?_
      refine Run.Appends.bind ?_ fun flow => .done _
      exact .round (expression inner) (part inner) (appending.loop depth inner _) _
  | function target parameters body =>
      refine (Run.Appends.declare env target.name).bind fun inner => ?_
      refine (Run.Appends.close inner target.name parameters body).bind fun value => ?_
      exact (Run.Appends.define inner target.name value).bind fun _ => .done _
  | giveBack line value => exact (Run.Appends.evaluate? (expression env) value).bind fun result => .done _

end Appending

theorem appending (fuel : Nat) : Appending fuel := by
  induction fuel with
  | zero =>
      exact ⟨fun _ _ _ => .outOfFuel, fun _ _ _ => .outOfFuel, fun _ _ _ => .outOfFuel⟩
  | succ fuel inductionHypothesis =>
      refine ⟨inductionHypothesis.evaluate_succ, inductionHypothesis.execute_succ, fun depth env whole => ?_⟩
      exact .round (inductionHypothesis.evaluate depth env) (inductionHypothesis.execute depth env)
        (inductionHypothesis.loop depth env whole) whole

end Cells

end ScopedScript
