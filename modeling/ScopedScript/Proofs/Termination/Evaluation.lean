import ScopedScript.Proofs.Machine.Heaps
import ScopedScript.Proofs.Machine.Mentions
import ScopedScript.Proofs.Scoping.CellEvaluator
import ScopedScript.Proofs.Termination.LoopFree
namespace ScopedScript

/-!
# Evaluation without loops ends

A run of the evaluator that needs no loop ends, whatever calls whatever.  The function that a call enters is
a value found in the store, so its body is no part of the call.  But the bodies of all functions are free of
loops and no larger than a common bound, and each call leaves one less to be made before the limit.  So it
is enough to have fuel for the size of what is evaluated and for as many bodies as calls are left:
`endsWith`.
-/

/-- A function of the program is free of loops, and its body is no larger than the bound. -/
def Value.IsTame (bound : Nat) : Value → Prop
  | .function _ (.closure closure) => Stmt.areLoopFree closure.body = true ∧ sizeOf closure.body ≤ bound
  | _ => True

/-- A value that is on its way to a call is tame. -/
def Flow.IsTame (bound : Nat) : Flow → Prop
  | .normal => True
  | .returned value => value.IsTame bound

section

variable {bound more : Nat}

theorem Value.isTame_of_not_closure {value : Value} (notClosure : value.isClosure = false) :
    value.IsTame bound := by
  cases value with
  | function identity callable =>
      cases callable with
      | closure closure => cases notClosure
      | builtin builtin => trivial
  | _ => trivial

theorem Value.IsTame.mono {value : Value} (tame : value.IsTame bound) (larger : bound ≤ more) :
    value.IsTame more := by
  cases value with
  | function identity callable =>
      cases callable with
      | closure closure => exact ⟨tame.1, Nat.le_trans tame.2 larger⟩
      | builtin builtin => trivial
  | _ => trivial

theorem Flow.IsTame.result {flow : Flow} (tame : flow.IsTame bound) : flow.result.IsTame bound := by
  cases flow with
  | normal => trivial
  | returned value => exact tame

end

namespace Cells

/-- There is a limit on active calls, and every function that can be got hold of is tame. -/
structure Store.IsTame (limit bound : Nat) (store : Store) : Prop where
  limited : store.host.callLimit = some limit
  globals : ∀ name value, store.globals.find? name = some value → value.IsTame bound
  cells : ∀ value ∈ store.cells, value.IsTame bound

namespace Store.IsTame

variable {limit bound more : Nat} {store : Store} {value : Value}

theorem mono (tame : store.IsTame limit bound) (larger : bound ≤ more) : store.IsTame limit more where
  limited := tame.limited
  globals name value found := (tame.globals name value found).mono larger
  cells value member := (tame.cells value member).mono larger

theorem setGlobal (tame : store.IsTame limit bound) (name : String) (tameValue : value.IsTame bound) :
    Store.IsTame limit bound { store with globals := store.globals.insert name value } where
  limited := tame.limited
  globals other another found := by
    rw [Bindings.find?_insert] at found
    split at found
    · cases found
      exact tameValue
    · exact tame.globals other another found
  cells := tame.cells

theorem setCell (tame : store.IsTame limit bound) (cell : CellId) (tameValue : value.IsTame bound) :
    Store.IsTame limit bound { store with cells := store.cells.setIfInBounds cell value } where
  limited := tame.limited
  globals := tame.globals
  cells another member := by
    rcases Array.mem_or_eq_of_mem_setIfInBounds member with old | new
    · exact tame.cells another old
    · subst new
      exact tameValue

theorem addCell (tame : store.IsTame limit bound) :
    Store.IsTame limit bound { store with cells := store.cells.push .nil } where
  limited := tame.limited
  globals := tame.globals
  cells another member := by
    rcases Array.mem_push.mp member with old | new
    · exact tame.cells another old
    · subst new
      trivial

theorem tick (tame : store.IsTame limit bound) : store.tick.IsTame limit bound where
  limited := tame.limited
  globals := tame.globals
  cells := tame.cells

theorem getCell (tame : store.IsTame limit bound) (cell : CellId) :
    (store.cells.getD cell .nil).IsTame bound := by
  rw [Array.getD]
  split
  · exact tame.cells _ (Array.getElem_mem _)
  · trivial

end Store.IsTame

/-! ## Runs that end -/

/-- A run has come to an end with a tame store, and with a good result if it gives one. -/
def HasEnded {α : Type} (limit bound : Nat) (good : α → Prop) : Outcome α × Store → Prop
  | (.done result, after) => good result ∧ after.IsTame limit bound
  | (.failed _, after) => after.IsTame limit bound
  | (.unfinished, _) => False

section

variable {α : Type} {limit bound : Nat} {good : α → Prop} {ended : Outcome α × Store}

theorem HasEnded.outcome_ne_unfinished (hasEnded : HasEnded limit bound good ended) : ended.1 ≠ .unfinished := by
  rcases ended with ⟨outcome, after⟩
  intro unfinished
  cases unfinished
  exact hasEnded

theorem HasEnded.store_isTame (hasEnded : HasEnded limit bound good ended) : ended.2.IsTame limit bound := by
  rcases ended with ⟨outcome, after⟩
  cases outcome with
  | done result => exact hasEnded.2
  | failed error => exact hasEnded
  | unfinished => exact hasEnded.elim

end

/-- The run comes to such an end from every tame store. -/
def Ends {α : Type} (limit bound : Nat) (good : α → Prop) (run : Run α) : Prop :=
  ∀ store, store.IsTame limit bound → HasEnded limit bound good (run store)

namespace Ends

variable {α β : Type} {limit bound : Nat} {good : α → Prop} {better : β → Prop}

theorem done {result : α} (isGood : good result) : Ends limit bound good (pure result) :=
  fun _ tame => ⟨isGood, tame⟩

theorem fail (cause : RuntimeCause) (line : Nat) : Ends limit bound good (Run.fail cause line) :=
  fun _ tame => tame

theorem bind {first : Run α} {next : α → Run β} (ends : Ends limit bound good first)
    (endsNext : ∀ result, good result → Ends limit bound better (next result)) :
    Ends limit bound better (first >>= next) := by
  intro store tame
  have ended := ends store tame
  change HasEnded limit bound better (first.andThen next store)
  unfold Run.andThen
  generalize first store = ran at ended ⊢
  rcases ran with ⟨outcome, after⟩
  cases outcome with
  | done result => exact endsNext result ended.1 after ended.2
  | failed error => exact ended
  | unfinished => exact ended

/-! ## Names -/

theorem declare (env : Env) (name : String) : Ends limit bound (fun _ => True) (declare env name) := by
  intro store tame
  cases env with
  | topLevel => exact ⟨trivial, tame⟩
  | inside names => exact ⟨trivial, tame.addCell⟩

theorem define (env : Env) (name : String) {value : Value} (tameValue : value.IsTame bound) :
    Ends limit bound (fun _ => True) (define env name value) := by
  intro store tame
  unfold Cells.define
  cases env.find? name with
  | some cell => exact ⟨trivial, tame.setCell cell tameValue⟩
  | none => exact ⟨trivial, tame.setGlobal name tameValue⟩

theorem read (env : Env) (target : Identifier) :
    Ends limit bound (Value.IsTame bound) (read env target) := by
  intro store tame
  unfold Cells.read
  cases env.find? target.name with
  | some cell => exact ⟨tame.getCell cell, tame⟩
  | none =>
      cases found : store.globals.find? target.name with
      | some value => exact ⟨tame.globals _ _ found, tame⟩
      | none => exact tame

theorem write (env : Env) (target : Identifier) {value : Value} (tameValue : value.IsTame bound) :
    Ends limit bound (fun _ => True) (write env target value) := by
  intro store tame
  unfold Cells.write
  cases env.find? target.name with
  | some cell => exact ⟨trivial, tame.setCell cell tameValue⟩
  | none =>
      cases store.globals.find? target.name with
      | some _ => exact ⟨trivial, tame.setGlobal target.name tameValue⟩
      | none => exact tame

theorem bindParameters (parameters : List Identifier) {arguments : List Value}
    (tameAll : ∀ value ∈ arguments, value.IsTame bound) (env : Env) :
    Ends limit bound (fun _ => True) (bindParameters parameters arguments env) := by
  induction parameters generalizing arguments env with
  | nil => exact done trivial
  | cons parameter rest inductionHypothesis =>
      cases arguments with
      | nil => exact done trivial
      | cons argument others =>
          rcases List.forall_mem_cons.mp tameAll with ⟨tameFirst, tameOthers⟩
          refine (declare env parameter.name).bind fun inner _ => ?_
          refine (define inner parameter.name tameFirst).bind fun _ _ => ?_
          exact inductionHypothesis tameOthers inner

/-! ## Functions and printing -/

theorem close (env : Env) (name : String) (parameters : List Identifier) {body : List Stmt}
    (loopFree : Stmt.areLoopFree body = true) (small : sizeOf body ≤ bound) :
    Ends limit bound (Value.IsTame bound) (close env name parameters body) :=
  fun _ tame => ⟨⟨loopFree, small⟩, ⟨tame.limited, tame.globals, tame.cells⟩⟩

theorem capturedBy (closure : Closure) : Ends limit bound (fun _ => True) (capturedBy closure) :=
  fun _ tame => ⟨trivial, tame⟩

theorem deliver (line : Nat) {result : Except RuntimeCause Value}
    (notClosure : ∀ value, result = .ok value → value.isClosure = false) :
    Ends limit bound (Value.IsTame bound) (deliver line result) := by
  cases result with
  | ok value => exact done (Value.isTame_of_not_closure (notClosure value rfl))
  | error cause => exact fail cause line

theorem printLine (line : Nat) (value : Value) :
    Ends limit bound (fun _ => True) (printLine line value) := by
  intro store tame
  unfold Cells.printLine
  rcases store.sink.writeLine value.render with ⟨sink, _ | _⟩
  · exact ⟨tame.limited, tame.globals, tame.cells⟩
  · exact ⟨trivial, tame.limited, tame.globals, tame.cells⟩

/-! ## Parts in order -/

variable {evaluate : Expr → Run Value} {execute : Env → Stmt → Run (Flow × Env)}

theorem evaluateAll {es : List Expr}
    (ends : ∀ e ∈ es, Ends limit bound (Value.IsTame bound) (evaluate e)) :
    Ends limit bound (fun values => ∀ value ∈ values, value.IsTame bound) (evaluateAll evaluate es) := by
  induction es with
  | nil => exact done nofun
  | cons first rest inductionHypothesis =>
      rcases List.forall_mem_cons.mp ends with ⟨endsFirst, endsRest⟩
      refine endsFirst.bind fun value tame => ?_
      refine (inductionHypothesis endsRest).bind fun values tameAll => ?_
      exact done (List.forall_mem_cons.mpr ⟨tame, tameAll⟩)

theorem printAll (line : Nat) {es : List Expr}
    (ends : ∀ e ∈ es, Ends limit bound (Value.IsTame bound) (evaluate e)) :
    Ends limit bound (fun _ => True) (printAll evaluate line es) := by
  induction es with
  | nil => exact done trivial
  | cons first rest inductionHypothesis =>
      rcases List.forall_mem_cons.mp ends with ⟨endsFirst, endsRest⟩
      refine endsFirst.bind fun value _ => ?_
      refine (printLine line value).bind fun _ _ => ?_
      exact inductionHypothesis endsRest

theorem evaluate? {e : Option Expr}
    (ends : ∀ present ∈ e, Ends limit bound (Value.IsTame bound) (evaluate present)) :
    Ends limit bound (Value.IsTame bound) (evaluate? evaluate e) := by
  cases e with
  | none => exact done trivial
  | some present => exact ends present rfl

theorem executeAll {ss : List Stmt}
    (ends : ∀ s ∈ ss, ∀ env, Ends limit bound (fun left => left.1.IsTame bound) (execute env s))
    (env : Env) : Ends limit bound (Flow.IsTame bound) (executeAll execute env ss) := by
  induction ss generalizing env with
  | nil => exact done trivial
  | cons first rest inductionHypothesis =>
      rcases List.forall_mem_cons.mp ends with ⟨endsFirst, endsRest⟩
      refine (endsFirst env).bind ?_
      rintro ⟨flow, after⟩ tame
      cases flow with
      | normal => exact inductionHypothesis endsRest after
      | returned value => exact done tame

/-- A call ends when the bodies of tame functions do, as long as there is a call left. -/
theorem call {depth : Nat} (line : Nat) {callee : Value} {arguments : List Value}
    (ends : depth < limit → ∀ s, s.isLoopFree = true → sizeOf s ≤ bound → ∀ env,
      Ends limit bound (fun left => left.1.IsTame bound) (execute env s))
    (tameCallee : callee.IsTame bound) (tameAll : ∀ value ∈ arguments, value.IsTame bound) :
    Ends limit bound (Value.IsTame bound) (call execute depth line callee arguments) := by
  intro store tame
  unfold Cells.call
  cases callee with
  | function identity callable =>
      dsimp only
      split
      · exact fail _ line store tame
      · split
        · exact fail _ line store tame
        · rename_i roomLeft
          have left : depth < limit := by
            rw [atLimit, tame.limited, decide_eq_true_eq] at roomLeft
            exact Nat.not_le.mp roomLeft
          cases callable with
          | builtin builtin =>
              dsimp only
              cases applied : builtin.apply store.host.reading arguments with
              | ok value =>
                  refine ⟨?_, tame.tick⟩
                  rcases Builtin.isClosure_or_mem_of_apply applied with notClosure | isArgument
                  · exact Value.isTame_of_not_closure notClosure
                  · exact tameAll value isArgument
              | error message => exact fail _ line store.tick tame.tick
          | closure closure =>
              refine Ends.bind (capturedBy closure) (fun env _ => ?_) store tame
              refine (bindParameters closure.parameters tameAll env.enter).bind fun inner _ => ?_
              refine (executeAll (fun s member => ends left s ?_ ?_) inner).bind fun flow tameFlow => ?_
              · exact Stmt.isLoopFree_of_mem tameCallee.1 member
              · exact Nat.le_of_lt (Nat.lt_of_lt_of_le (List.sizeOf_lt_of_mem member) tameCallee.2)
              · exact done tameFlow.result
  | _ => exact fail _ line store tame

/-! ## Evaluation

Besides the fuel for what is evaluated there must be some for the bodies that calls can still enter.  The
fuel is counted down with the nesting, so the induction is on it. -/

variable {fuel depth : Nat}

/-- What may be spent on one more call when there is enough for all of them. -/
theorem le_of_call_left {size : Nat} (left : depth < limit) (small : size ≤ bound)
    (enough : (limit - depth) * bound ≤ fuel) : size + (limit - (depth + 1)) * bound ≤ fuel := by
  have split : limit - depth = limit - (depth + 1) + 1 := by omega
  rw [split, Nat.succ_mul, Nat.add_comm] at enough
  exact Nat.le_trans (Nat.add_le_add_right small _) enough

end Ends

/-- With so much fuel, expressions end, and so do small statements without loops. -/
def EndsWith (limit bound fuel : Nat) : Prop :=
  (∀ e depth env, sizeOf e + (limit - depth) * bound ≤ fuel →
    Ends limit bound (Value.IsTame bound) (evaluate fuel depth env e)) ∧
  (∀ s depth env, s.isLoopFree = true → sizeOf s ≤ bound → sizeOf s + (limit - depth) * bound ≤ fuel →
    Ends limit bound (fun left => left.1.IsTame bound) (execute fuel depth env s))

namespace EndsWith

variable {limit bound fuel : Nat}

theorem evaluate (ends : EndsWith limit bound fuel) (e : Expr) (depth : Nat) (env : Env)
    (enough : sizeOf e + (limit - depth) * bound ≤ fuel + 1) :
    Ends limit bound (Value.IsTame bound) (evaluate (fuel + 1) depth env e) := by
  have part : ∀ inner, sizeOf inner < sizeOf e →
      Ends limit bound (Value.IsTame bound) (Cells.evaluate fuel depth env inner) :=
    fun inner smaller => ends.1 inner depth env (by omega)
  cases e with
  | constant value => exact Ends.done (Value.isTame_of_not_closure (by cases value <;> rfl))
  | group inner => exact part inner (by simp only [Expr.group.sizeOf_spec]; omega)
  | unary op line operand =>
      refine (part operand (by simp only [Expr.unary.sizeOf_spec]; omega)).bind fun value _ => ?_
      exact .deliver line fun _ => UnaryOp.isClosure_apply
  | binary op line left right =>
      refine (part left (by simp only [Expr.binary.sizeOf_spec]; omega)).bind fun first _ => ?_
      refine (part right (by simp only [Expr.binary.sizeOf_spec]; omega)).bind fun second _ => ?_
      exact .deliver line fun _ => BinaryOp.isClosure_apply
  | logical op left right =>
      refine (part left (by simp only [Expr.logical.sizeOf_spec]; omega)).bind fun first tame => ?_
      split
      · exact .done tame
      · exact part right (by simp only [Expr.logical.sizeOf_spec]; omega)
  | «variable» ref target => exact .read env target
  | assign ref target value =>
      refine (part value (by simp only [Expr.assign.sizeOf_spec]; omega)).bind fun result tame => ?_
      refine (Ends.write env target tame).bind fun _ _ => ?_
      exact .done tame
  | call callee line arguments =>
      refine (part callee (by simp only [Expr.call.sizeOf_spec]; omega)).bind fun function tame => ?_
      refine (Ends.evaluateAll fun argument member => part argument ?_).bind fun values tameAll => ?_
      · have smaller := List.sizeOf_lt_of_mem member
        simp only [Expr.call.sizeOf_spec]
        omega
      · refine .call line (fun left s loopFree small inner => ?_) tame tameAll
        refine ends.2 s (depth + 1) inner loopFree small (Ends.le_of_call_left left small ?_)
        simp only [Expr.call.sizeOf_spec] at enough
        omega

theorem execute (ends : EndsWith limit bound fuel) (s : Stmt) (depth : Nat) (env : Env)
    (loopFree : s.isLoopFree = true) (small : sizeOf s ≤ bound)
    (enough : sizeOf s + (limit - depth) * bound ≤ fuel + 1) :
    Ends limit bound (fun left => left.1.IsTame bound) (execute (fuel + 1) depth env s) := by
  have expression : ∀ e inner, sizeOf e < sizeOf s →
      Ends limit bound (Value.IsTame bound) (Cells.evaluate fuel depth inner e) :=
    fun e inner smaller => ends.1 e depth inner (by omega)
  have part : ∀ t inner, t.isLoopFree = true → sizeOf t < sizeOf s →
      Ends limit bound (fun left => left.1.IsTame bound) (Cells.execute fuel depth inner t) :=
    fun t inner free smaller => ends.2 t depth inner free (by omega) (by omega)
  cases s with
  | expression value =>
      refine (expression value env (by simp only [Stmt.expression.sizeOf_spec]; omega)).bind fun _ _ => ?_
      exact .done trivial
  | print line values =>
      refine (Ends.printAll line fun value member => expression value env ?_).bind fun _ _ => ?_
      · have smaller := List.sizeOf_lt_of_mem member
        simp only [Stmt.print.sizeOf_spec]
        omega
      · exact .done trivial
  | declare target initializer =>
      refine (Ends.declare env target.name).bind fun inner _ => ?_
      refine (Ends.evaluate? fun value present => expression value inner ?_).bind fun value tame => ?_
      · cases present
        simp only [Stmt.declare.sizeOf_spec, Option.some.sizeOf_spec]
        omega
      · refine (Ends.define inner target.name tame).bind fun _ _ => ?_
        exact .done trivial
  | block body =>
      refine (Ends.executeAll (fun t member inner => part t inner ?_ ?_) env.enter).bind fun flow tame => ?_
      · exact Stmt.isLoopFree_of_mem loopFree member
      · have smaller := List.sizeOf_lt_of_mem member
        simp only [Stmt.block.sizeOf_spec]
        omega
      · exact .done tame
  | branch condition whenTrue whenFalse =>
      rcases Bool.and_eq_true_iff.mp loopFree with ⟨freeTrue, freeFalse⟩
      refine (expression condition env (by simp only [Stmt.branch.sizeOf_spec]; omega)).bind fun value _ => ?_
      split
      · exact part whenTrue env freeTrue (by simp only [Stmt.branch.sizeOf_spec]; omega)
      · cases whenFalse with
        | none => exact .done trivial
        | some other =>
            refine part other env freeFalse ?_
            simp only [Stmt.branch.sizeOf_spec, Option.some.sizeOf_spec]
            omega
  | whileLoop condition body => cases loopFree
  | forLoop first condition increment body => cases loopFree
  | function target parameters body =>
      refine (Ends.declare env target.name).bind fun inner _ => ?_
      refine (Ends.close inner target.name parameters loopFree ?_).bind fun value tame => ?_
      · simp only [Stmt.function.sizeOf_spec] at small
        omega
      · refine (Ends.define inner target.name tame).bind fun _ _ => ?_
        exact .done trivial
  | giveBack line value =>
      refine (Ends.evaluate? fun present isPresent => expression present env ?_).bind fun result tame => ?_
      · cases isPresent
        simp only [Stmt.giveBack.sizeOf_spec, Option.some.sizeOf_spec]
        omega
      · exact .done tame

end EndsWith

/-- Expressions, and statements without loops, end when there is fuel for their size and for every call that
is left. -/
theorem endsWith (limit bound fuel : Nat) : EndsWith limit bound fuel := by
  induction fuel with
  | zero =>
      refine ⟨fun e depth env enough => ?_, fun s depth env _ _ enough => ?_⟩
      · cases e <;> simp at enough
      · cases s <;> simp at enough
  | succ fuel ends => exact ⟨ends.evaluate, ends.execute⟩

/-- A program without loops ends, with enough fuel for its size and for the bodies of all calls in it. -/
theorem executeAll_ends {limit bound fuel : Nat} {program : List Stmt}
    (loopFree : Stmt.areLoopFree program = true) (small : sizeOf program ≤ bound)
    (enough : bound + limit * bound ≤ fuel) (env : Env) :
    Ends limit bound (Flow.IsTame bound) (executeAll (execute fuel 0) env program) := by
  refine Ends.executeAll (fun s member inner => ?_) env
  have smaller := Nat.lt_of_lt_of_le (List.sizeOf_lt_of_mem member) small
  refine (endsWith limit bound fuel).2 s 0 inner (Stmt.isLoopFree_of_mem loopFree member) ?_ ?_
  · exact Nat.le_of_lt smaller
  · exact Nat.le_trans (Nat.add_le_add_right (Nat.le_of_lt smaller) _) enough

end Cells

end ScopedScript
