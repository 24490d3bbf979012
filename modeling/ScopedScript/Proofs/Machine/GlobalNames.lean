import ScopedScript.Proofs.Scoping.Access
import ScopedScript.Proofs.Scoping.ScopeTrees
import ScopedScript.Proofs.Scoping.Worlds
namespace ScopedScript

/-!
# Which global names a statement adds

While a statement of the top level runs, the global scope is current again and again, but nothing that is
executed there is a declaration, apart from the statement itself.  Blocks, loops and calls have scopes of
their own for what they declare.  And an assignment only changes what is there: code at the top level has no
recorded distances, and elsewhere a distance leads to a name that is bound, or stays in the current scope.

So the names are what they were until the statement is through, and then its own name has been added:
`Config.Adds`.
-/

/-- Whether a name is bound at the top level. -/
def State.hasGlobal (state : State) (name : String) : Bool :=
  (state.heap.lookup? globalScope name).isSome

/-- The name that a statement declares where it stands. -/
def Stmt.declared? : Stmt → Option String
  | .declare target _ | .function target _ _ => some target.name
  | _ => none

/-- The names that statements declare where they stand, one after another. -/
def Stmt.declaredNames (ss : List Stmt) : List String := ss.filterMap Stmt.declared?

/-- The parts of a loop are bound at the top level. -/
def Loop.BoundAtTop (known : Known) (loop : Loop) : Prop :=
  Expr.Bound? known [] none loop.condition ∧ Expr.Bound? known [] none loop.increment ∧
    loop.body.Bound known [] ∧ loop.body.declares = false

section

variable (known : Known) (declared : Option String)

mutual

/-- What waits for a value leaves the top level as it is, when it goes on in the scope: code for the top level
is bound there, and declares nothing but, in the very end, the one name. -/
def ValueStack.Spares (scope : ScopeId) : ValueStack → Prop
  | .bottom => True
  | .unary _ _ below | .binaryRight _ _ _ below => below.Spares scope
  | .binaryLeft _ _ right below | .logical _ right below =>
    (scope = globalScope → right.Bound known [] none) ∧ below.Spares scope
  | .assign ref _ below => (scope = globalScope → known ref none) ∧ below.Spares scope
  | .callee _ pending below | .argument _ _ _ pending below =>
    (scope = globalScope → Expr.AllBound known [] none pending) ∧ below.Spares scope
  | .discard below | .giveBack below => below.Spares scope
  | .print _ pending below =>
    (scope = globalScope → Expr.AllBound known [] none pending) ∧ below.Spares scope
  | .declare name below =>
    if scope = globalScope then below = .bottom ∧ declared = some name else below.Spares scope
  | .branch whenTrue whenFalse below =>
    (scope = globalScope → (whenTrue.Bound known [] ∧ whenTrue.declares = false) ∧
      Stmt.BranchBound known [] whenFalse) ∧ below.Spares scope
  | .loopCondition loop below | .loopIncrement loop below =>
    (scope = globalScope → loop.BoundAtTop known) ∧ below.Spares scope

/-- The same for what waits for the end of a statement. -/
def FlowStack.Spares (scope : ScopeId) : FlowStack → Prop
  | .bottom => declared = none
  | .sequence _ below | .loopStart _ below => scope ≠ globalScope ∧ below.Spares scope
  | .loopBody loop below => (scope = globalScope → loop.BoundAtTop known) ∧ below.Spares scope
  | .leaveScope outer below => below.Spares outer
  | .leaveCall caller below => below.Spares caller

end

/-- The same for what happens next.  A failure executes nothing any more. -/
def Focus.Spares (scope : ScopeId) : Focus → Prop
  | .evaluate e stack => (scope = globalScope → e.Bound known [] none) ∧ stack.Spares known declared scope
  | .value _ stack => stack.Spares known declared scope
  | .execute s below =>
    (scope = globalScope → s.Bound known [] ∧ s.declares = false) ∧ below.Spares known declared scope
  | .executeAll _ below => scope ≠ globalScope ∧ below.Spares known declared scope
  | .flow _ below => below.Spares known declared scope
  | .unwindValue _ _ | .unwindFlow _ _ => True

/-- The global names are these, and the distances say what is known. -/
structure State.Shows (names : String → Bool) (state : State) : Prop where
  names : ∀ name, state.hasGlobal name = names name
  exists_global : globalScope < state.heap.nextId
  distances : ∀ ref distance, known ref distance → state.distances.find? ref = distance

/-- The global names are these, and what is left to do leaves them as they are. -/
def Config.Spares (names : String → Bool) (config : Config) : Prop :=
  config.state.Shows known names ∧ config.focus.Spares known declared config.state.scope

/-- The global names are these until the end, and then the declared one is among them. -/
def Config.Adds (names : String → Bool) (config : Config) : Prop :=
  config.Spares known declared names ∨
    config.focus = .flow .normal .bottom ∧
      ∀ name, config.state.hasGlobal name = (names name || declared == some name)

end

/-! ## States -/

namespace State.Shows

variable {known : Known} {names : String → Bool} {state : State}

/-- A name is bound in another scope, or there is one of this name at the top level. -/
theorem assign (shows : state.Shows known names) {holder : ScopeId} {name : String} (value : Value)
    (harmless : holder = globalScope → names name = true) :
    State.Shows known names { state with heap := state.heap.define holder name value } := by
  refine ⟨fun other => ?_, ?_, shows.distances⟩
  · rw [← shows.names other, hasGlobal, Heap.lookup?_define]
    split
    · rename_i same
      rw [← same.2.1, shows.names name, harmless same.1]
      rfl
    · rfl
  · rw [Heap.nextId_define]
    exact shows.exists_global

theorem define (shows : state.Shows known names) (inside : state.scope ≠ globalScope) (name : String)
    (value : Value) : (state.define name value).Shows known names :=
  shows.assign value fun atTop => absurd atTop inside

theorem defineFunction (shows : state.Shows known names) (inside : state.scope ≠ globalScope) (name : String)
    (callable : Callable) : (state.defineFunction name callable).Shows known names :=
  have defined := shows.define inside name (.function state.identity callable)
  ⟨defined.1, defined.2, defined.3⟩

theorem enterScope (shows : state.Shows known names) (outer : ScopeId) :
    (state.enterScope outer).Shows known names := by
  refine ⟨fun name => ?_, ?_, shows.distances⟩
  · rw [← shows.names name, hasGlobal, State.enterScope, Heap.lookup?_create]
    rfl
  · change globalScope < (state.heap.create (some outer)).nextId
    rw [Heap.nextId_create]
    exact Nat.lt_succ_of_lt shows.exists_global

theorem scope_enterScope (shows : state.Shows known names) (outer : ScopeId) :
    (state.enterScope outer).scope ≠ globalScope :=
  Nat.ne_of_gt shows.exists_global

/-- The parameters of a call are bound in a scope of their own. -/
theorem enterCall (shows : state.Shows known names) (closure : Closure) (arguments : List Value) :
    (state.enterCall closure arguments).Shows known names ∧
      (state.enterCall closure arguments).scope ≠ globalScope := by
  have deeper : State.Shows known names { state with depth := state.depth + 1 } :=
    ⟨shows.1, shows.2, shows.3⟩
  exact bindParameters_of_define (P := fun after => after.Shows known names ∧ after.scope ≠ globalScope)
    (fun name value _ ⟨shown, inside⟩ => ⟨shown.define inside name value, inside⟩)
    closure.parameters ⟨deeper.enterScope closure.scope, deeper.scope_enterScope closure.scope⟩

theorem moved (shows : state.Shows known names) (scope : ScopeId) (depth : Nat) :
    State.Shows known names { state with scope, depth } :=
  ⟨shows.1, shows.2, shows.3⟩

theorem tick (shows : state.Shows known names) : state.tick.Shows known names := ⟨shows.1, shows.2, shows.3⟩

theorem printed (shows : state.Shows known names) (sink : Sink) :
    State.Shows known names { state with sink } :=
  ⟨shows.1, shows.2, shows.3⟩

/-- What a reference without a distance writes to at the top level is there. -/
theorem bound_of_writeScope (shows : state.Shows known names) {ref : RefId} {target : Identifier}
    {holder : ScopeId} (found : state.writeScope ref target = .ok holder)
    (noDistance : state.distances.find? ref = none) : names target.name = true := by
  unfold writeScope at found
  rw [noDistance] at found
  dsimp only at found
  rw [Heap.holder?_globalScope] at found
  split at found
  · rename_i present
    split at present
    · rename_i bound
      rw [← shows.names]
      exact bound
    · cases present
  · cases found

end State.Shows

/-! ## Steps -/

namespace Config

section

variable {known : Known} {declared : Option String} {names : String → Bool} {state : State} {line : Nat}
  {stack : ValueStack} {below : FlowStack}

theorem spares_deliver (shows : state.Shows known names) (result : Except RuntimeCause Value)
    (waiting : stack.Spares known declared state.scope) :
    (deliver state line result stack).Spares known declared names := by
  cases result with
  | error cause => exact ⟨shows, trivial⟩
  | ok value => exact ⟨shows, waiting⟩

theorem spares_evaluate (shows : state.Shows known names) {e : Expr}
    (bound : state.scope = globalScope → e.Bound known [] none)
    (waiting : stack.Spares known declared state.scope) :
    (evaluate state e stack).Spares known declared names := by
  cases e with
  | constant value => exact ⟨shows, waiting⟩
  | group inner => exact ⟨shows, bound, waiting⟩
  | unary op line operand => exact ⟨shows, bound, waiting⟩
  | binary op line left right => exact ⟨shows, fun atTop => (bound atTop).1, fun atTop => (bound atTop).2, waiting⟩
  | logical op left right => exact ⟨shows, fun atTop => (bound atTop).1, fun atTop => (bound atTop).2, waiting⟩
  | «variable» ref target =>
      rw [evaluate]
      split
      · exact ⟨shows, waiting⟩
      · exact ⟨shows, trivial⟩
  | assign ref target value => exact ⟨shows, fun atTop => (bound atTop).1, fun atTop => (bound atTop).2, waiting⟩
  | call callee line arguments =>
      exact ⟨shows, fun atTop => (bound atTop).1, fun atTop => (bound atTop).2, waiting⟩

theorem spares_call (shows : state.Shows known names) (callee : Value) (arguments : List Value)
    (waiting : stack.Spares known declared state.scope) :
    (call state line callee arguments stack).Spares known declared names := by
  unfold call
  split
  · split
    · exact ⟨shows, trivial⟩
    · split
      · exact ⟨shows, trivial⟩
      · split
        · split
          · exact ⟨shows.tick, waiting⟩
          · exact ⟨shows.tick, trivial⟩
        · rename_i closure _
          have entered := shows.enterCall closure arguments
          exact ⟨entered.1, entered.2, waiting⟩
  · exact ⟨shows, trivial⟩

theorem spares_evaluateArguments (shows : state.Shows known names) (callee : Value) (done : List Value)
    {pending : List Expr} (bound : state.scope = globalScope → Expr.AllBound known [] none pending)
    (waiting : stack.Spares known declared state.scope) :
    (evaluateArguments state line callee done pending stack).Spares known declared names := by
  cases pending with
  | nil => exact spares_call shows callee done.reverse waiting
  | cons next rest => exact ⟨shows, fun atTop => (bound atTop).1, fun atTop => (bound atTop).2, waiting⟩

theorem spares_printNext (shows : state.Shows known names) {pending : List Expr}
    (bound : state.scope = globalScope → Expr.AllBound known [] none pending)
    (waiting : below.Spares known declared state.scope) :
    (printNext state line pending below).Spares known declared names := by
  cases pending with
  | nil => exact ⟨shows, waiting⟩
  | cons next rest => exact ⟨shows, fun atTop => (bound atTop).1, fun atTop => (bound atTop).2, waiting⟩

theorem spares_print (shows : state.Shows known names) (value : Value) {pending : List Expr}
    (bound : state.scope = globalScope → Expr.AllBound known [] none pending)
    (waiting : below.Spares known declared state.scope) :
    (print state line value pending below).Spares known declared names := by
  unfold print
  split
  next after written =>
    obtain rfl : (state.writeLine value.render).1 = after := congrArg Prod.fst written
    exact spares_printNext (shows.printed _) bound waiting
  next after written =>
    obtain rfl : (state.writeLine value.render).1 = after := congrArg Prod.fst written
    exact ⟨shows.printed _, trivial⟩

theorem spares_chooseBranch (shows : state.Shows known names) (condition : Value) {whenTrue : Stmt}
    {whenFalse : Option Stmt}
    (bound : state.scope = globalScope → (whenTrue.Bound known [] ∧ whenTrue.declares = false) ∧
      Stmt.BranchBound known [] whenFalse)
    (waiting : below.Spares known declared state.scope) :
    (chooseBranch state condition whenTrue whenFalse below).Spares known declared names := by
  unfold chooseBranch
  split
  · exact ⟨shows, fun atTop => (bound atTop).1, waiting⟩
  · split
    · exact ⟨shows, fun atTop => (bound atTop).2, waiting⟩
    · exact ⟨shows, waiting⟩

theorem spares_beginRound (shows : state.Shows known names) {loop : Loop}
    (bound : state.scope = globalScope → loop.BoundAtTop known)
    (waiting : below.Spares known declared state.scope) :
    (beginRound state loop below).Spares known declared names := by
  rcases loop with ⟨condition, increment, body⟩
  cases condition with
  | some condition => exact ⟨shows, fun atTop => (bound atTop).1, bound, waiting⟩
  | none => exact ⟨shows, fun atTop => (bound atTop).2.2, bound, waiting⟩

theorem spares_endRound (shows : state.Shows known names) {loop : Loop}
    (bound : state.scope = globalScope → loop.BoundAtTop known)
    (waiting : below.Spares known declared state.scope) :
    (endRound state loop below).Spares known declared names := by
  rcases loop with ⟨condition, increment, body⟩
  cases increment with
  | some increment => exact ⟨shows, fun atTop => (bound atTop).2.1, bound, waiting⟩
  | none => exact spares_beginRound shows bound waiting

theorem spares_execute (shows : state.Shows known names) {s : Stmt}
    (bound : state.scope = globalScope → s.Bound known [] ∧ s.declares = false)
    (waiting : below.Spares known declared state.scope) :
    (execute state s below).Spares known declared names := by
  have inside := shows.scope_enterScope state.scope
  cases s with
  | expression value => exact ⟨shows, fun atTop => (bound atTop).1, waiting⟩
  | print line values => exact spares_printNext shows (fun atTop => (bound atTop).1) waiting
  | declare target initializer =>
      have notTop : state.scope ≠ globalScope := by
        intro atTop
        cases (bound atTop).2
      cases initializer with
      | none => exact ⟨shows.define notTop target.name .nil, waiting⟩
      | some value =>
          refine ⟨shows, fun atTop => absurd atTop notTop, ?_⟩
          change ValueStack.Spares known declared state.scope (.declare target.name below)
          rw [ValueStack.Spares, if_neg notTop]
          exact waiting
  | block body => exact ⟨shows.enterScope state.scope, inside, waiting⟩
  | branch condition whenTrue whenFalse =>
      exact ⟨shows, fun atTop => (bound atTop).1.1, fun atTop => (bound atTop).1.2, waiting⟩
  | whileLoop condition body =>
      refine spares_beginRound shows (fun atTop => ?_) waiting
      rcases bound atTop with ⟨⟨condition, body, nothing⟩, -⟩
      exact ⟨condition, trivial, body, nothing⟩
  | forLoop first condition increment body =>
      cases first with
      | none =>
          exact spares_beginRound (shows.enterScope state.scope) (fun atTop => absurd atTop inside) waiting
      | some first =>
          exact ⟨shows.enterScope state.scope, fun atTop => absurd atTop inside, inside, waiting⟩
  | function target parameters body =>
      have notTop : state.scope ≠ globalScope := by
        intro atTop
        cases (bound atTop).2
      exact ⟨shows.defineFunction notTop target.name _, waiting⟩
  | giveBack line value =>
      cases value with
      | none => exact ⟨shows, waiting⟩
      | some value => exact ⟨shows, fun atTop => (bound atTop).1, waiting⟩

/-- A name that is bound at the top level is one of the global names, as the others are. -/
theorem hasGlobal_define (shows : state.Shows known names) (atTop : state.scope = globalScope)
    (name : String) (value : Value) (other : String) :
    (state.define name value).hasGlobal other = (names other || some name == some other) := by
  rw [← shows.names other, State.hasGlobal, State.define, Heap.lookup?_define, atTop]
  by_cases same : name = other
  · subst same
    rw [if_pos ⟨rfl, rfl, shows.exists_global⟩, beq_self_eq_true, Bool.or_true]
    rfl
  · have differs : (some name == some other) = false := beq_false_of_ne fun both => same (Option.some.inj both)
    rw [if_neg fun all => same all.2.1, differs, Bool.or_false]
    rfl

/-- A value goes to what waits for it.  Only what the statement itself declares is not spared. -/
theorem adds_resumeValue (shows : state.Shows known names) {value : Value}
    (fits : AccessesBound ⟨state, .value value stack⟩) (waiting : stack.Spares known declared state.scope) :
    (resumeValue state value stack).Adds known declared names := by
  cases stack with
  | bottom => exact .inl ⟨shows, waiting⟩
  | unary op line below => exact .inl (spares_deliver shows _ waiting)
  | binaryLeft op line right below => exact .inl ⟨shows, waiting.1, waiting.2⟩
  | binaryRight op line left below => exact .inl (spares_deliver shows _ waiting)
  | logical op right below =>
      rw [resumeValue]
      split
      · exact .inl ⟨shows, waiting.2⟩
      · exact .inl ⟨shows, waiting.1, waiting.2⟩
  | assign ref target below =>
      rw [resumeValue, state.assign_eq]
      cases found : state.writeScope ref target with
      | error => exact .inl ⟨shows, trivial⟩
      | ok holder =>
        refine .inl ⟨shows.assign value fun atTop => ?_, waiting.2⟩
        cases recorded : state.distances.find? ref with
        | none => exact shows.bound_of_writeScope found recorded
        | some distance =>
            rcases fits distance recorded with ⟨other, leads, bound⟩
            have same : other = holder := by
              rw [State.writeScope, recorded] at found
              dsimp only at found
              rw [Heap.ancestor, leads] at found
              exact Except.ok.inj found
            subst same atTop
            rcases bound with bound | ⟨here, -⟩
            · rw [← shows.names]
              exact bound
            · rw [shows.distances ref none (waiting.1 here.symm)] at recorded
              cases recorded
  | callee line arguments below => exact .inl (spares_evaluateArguments shows value [] waiting.1 waiting.2)
  | argument line callee done pending below =>
      exact .inl (spares_evaluateArguments shows callee (value :: done) waiting.1 waiting.2)
  | discard below => exact .inl ⟨shows, waiting⟩
  | print line pending below => exact .inl (spares_print shows value waiting.1 waiting.2)
  | declare name below =>
      rw [ValueStack.Spares] at waiting
      split at waiting
      · rename_i atTop
        rcases waiting with ⟨rfl, rfl⟩
        exact .inr ⟨rfl, hasGlobal_define shows atTop name value⟩
      · rename_i notTop
        exact .inl ⟨shows.define notTop name value, waiting⟩
  | branch whenTrue whenFalse below => exact .inl (spares_chooseBranch shows value waiting.1 waiting.2)
  | loopCondition loop below =>
      rw [resumeValue]
      split
      · exact .inl ⟨shows, fun atTop => (waiting.1 atTop).2.2, waiting.1, waiting.2⟩
      · exact .inl ⟨shows, waiting.2⟩
  | loopIncrement loop below => exact .inl (spares_beginRound shows waiting.1 waiting.2)
  | giveBack below => exact .inl ⟨shows, waiting⟩

theorem spares_resumeFlow (shows : state.Shows known names) (flow : Flow)
    (waiting : below.Spares known declared state.scope) :
    (resumeFlow state flow below).Spares known declared names := by
  cases below with
  | bottom => exact ⟨shows, waiting⟩
  | sequence rest below =>
      cases flow with
      | normal => exact ⟨shows, waiting.1, waiting.2⟩
      | returned result => exact ⟨shows, waiting.2⟩
  | loopStart loop below => exact spares_beginRound shows (fun atTop => absurd atTop waiting.1) waiting.2
  | loopBody loop below =>
      cases flow with
      | normal => exact spares_endRound shows waiting.1 waiting.2
      | returned result => exact ⟨shows, waiting.2⟩
  | leaveScope outer below => exact ⟨shows.moved outer state.depth, waiting⟩
  | leaveCall caller below => exact ⟨shows.moved caller (state.depth - 1), waiting⟩

end

variable {known : Known} {declared : Option String} {names : String → Bool} {config : Config}

/-- A step adds no global name but the one that is declared. -/
theorem Spares.step (spares : config.Spares known declared names) (fits : config.AccessesBound) :
    config.step.Adds known declared names := by
  rcases config with ⟨state, focus⟩
  rcases spares with ⟨shows, quiet⟩
  cases focus with
  | evaluate e stack => exact .inl (spares_evaluate shows quiet.1 quiet.2)
  | value value stack => exact adds_resumeValue shows fits quiet
  | execute s below => exact .inl (spares_execute shows quiet.1 quiet.2)
  | executeAll ss below =>
      cases ss with
      | nil => exact .inl ⟨shows, quiet.2⟩
      | cons first rest => exact .inl ⟨shows, fun atTop => absurd atTop quiet.1, quiet.1, quiet.2⟩
  | flow flow below => exact .inl (spares_resumeFlow shows flow quiet)
  | unwindValue failure stack => cases stack <;> exact .inl ⟨shows, trivial⟩
  | unwindFlow failure below =>
      cases below with
      | leaveScope outer below => exact .inl ⟨shows.moved outer state.depth, trivial⟩
      | leaveCall caller below => exact .inl ⟨shows.moved caller (state.depth - 1), trivial⟩
      | _ => exact .inl ⟨shows, trivial⟩

theorem Adds.step (adds : config.Adds known declared names) (fits : config.AccessesBound) :
    config.step.Adds known declared names := by
  rcases adds with spares | ⟨normal, added⟩
  · exact spares.step fits
  · rw [step_of_isDone (by rw [isDone, normal])]
    exact .inr ⟨normal, added⟩

/-- The first step of a statement of the top level.  What it declares is not added before its end. -/
theorem adds_step_execute {state : State} {s : Stmt} (shows : state.Shows known names)
    (atTop : state.scope = globalScope) (bound : s.Bound known []) :
    (step ⟨state, .execute s .bottom⟩).Adds known s.declared? names := by
  cases s with
  | declare target initializer =>
      cases initializer with
      | none => exact .inr ⟨rfl, hasGlobal_define shows atTop target.name .nil⟩
      | some value =>
          refine .inl ⟨shows, fun _ => bound.2, ?_⟩
          change ValueStack.Spares known (some target.name) state.scope (.declare target.name .bottom)
          rw [ValueStack.Spares, if_pos atTop]
          exact ⟨rfl, rfl⟩
  | function target parameters body => exact .inr ⟨rfl, hasGlobal_define shows atTop target.name _⟩
  | _ => exact Spares.step ⟨shows, fun _ => ⟨bound, rfl⟩, rfl⟩ trivial

/-- However long it runs, it adds no global name but the one that is declared, and that when it is through. -/
theorem Adds.iterate_step (adds : config.Adds known declared names)
    (fits : ∀ n, (Config.step^[n] config).AccessesBound) (n : Nat) :
    (Config.step^[n] config).Adds known declared names := by
  induction n with
  | zero => exact adds
  | succ n inductionHypothesis =>
      rw [Function.iterate_succ_apply']
      exact inductionHypothesis.step (fits n)

/-- What has run to its end has added its name, if it declares one, and nothing else adds any. -/
theorem Adds.hasGlobal_iff (adds : config.Adds known declared names) (name : String) :
    config.state.hasGlobal name = true ↔
      names name = true ∨ config.focus = .flow .normal .bottom ∧ declared = some name := by
  rcases adds with ⟨shows, quiet⟩ | ⟨normal, added⟩
  · rw [shows.names]
    refine ⟨.inl, fun either => either.elim id ?_⟩
    rintro ⟨normal, declares⟩
    rw [normal] at quiet
    cases declares.symm.trans quiet
  · rw [added, Bool.or_eq_true, beq_iff_eq]
    exact or_congr_right ⟨fun declares => ⟨normal, declares⟩, And.right⟩

end Config

end ScopedScript
