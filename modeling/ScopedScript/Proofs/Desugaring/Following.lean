import ScopedScript.Proofs.Desugaring.Variants
import ScopedScript.Proofs.Desugaring.LoopRuns
import ScopedScript.Proofs.Scoping.CellOutput
namespace ScopedScript

/-!
# Runs that follow each other

One run leads to another when, from stores that are variants, the other one comes to the same end with
variants of the same values, or has printed as much at least while the first one is out of fuel.  Everything
that the evaluator is made of keeps this up, so it is enough to know it of the parts of a program.

Nothing is said about what comes of a run when the other one is out of fuel: it is the first one that has to
be waited for.
-/

instance : Std.Refl Value.Varies := ⟨.refl⟩

instance : Std.Refl (List.Forall₂ Value.Varies) := ⟨List.forall₂_refl⟩

instance : Std.Refl Flow.Varies where
  refl flow := by
    cases flow with
    | normal => exact .normal
    | returned value => exact .returned (.refl value)

namespace Cells

/-- What two statements leave: the same map, and flows with variants of the same value. -/
def Leaves (left leftToo : Flow × Env) : Prop := left.1.Varies leftToo.1 ∧ leftToo.2 = left.2

instance : Std.Refl Leaves := ⟨fun _ => ⟨Std.Refl.refl _, rfl⟩⟩

/-- Where a run comes to, another one comes to as well. -/
inductive Attains {α : Type} (alike : α → α → Prop) : Outcome α × Store → Outcome α × Store → Prop where
  | done {result other : α} {store storeToo : Store} (same : alike result other)
      (varies : store.Varies storeToo) : Attains alike (.done result, store) (.done other, storeToo)
  | failed (error : RuntimeError) {store storeToo : Store} (varies : store.Varies storeToo) :
      Attains alike (.failed error, store) (.failed error, storeToo)
  | running {store : Store} {ended : Outcome α × Store} (printed : store.sink.Precedes ended.2.sink) :
      Attains alike (.unfinished, store) ended

/-- From variants of the same store, where one run comes to, another one comes to as well. -/
structure Leads {α : Type} (alike : α → α → Prop) (run runToo : Run α) : Prop where
  appends : runToo.Appends
  attains : ∀ store storeToo : Store, store.Varies storeToo → Attains alike (run store) (runToo storeToo)

namespace Leads

variable {α β : Type} {alike : α → α → Prop} {alikeNext : β → β → Prop}

theorem done {result other : α} (same : alike result other) : Leads alike (pure result) (pure other) where
  appends := .done other
  attains _ _ varies := .done same varies

theorem fail (cause : RuntimeCause) (line : Nat) :
    Leads alike (Run.fail cause line) (Run.fail cause line) where
  appends := .fail cause line
  attains _ _ varies := .failed _ varies

theorem outOfFuel {runToo : Run α} (appends : runToo.Appends) : Leads alike Run.outOfFuel runToo where
  appends := appends
  attains store storeToo varies := by
    refine .running ?_
    have printed := appends storeToo
    rw [varies.sink] at printed
    exact printed

/-- What comes next has to lead on from results that there can be. -/
theorem andThen {good : α → Prop} {first firstToo : Run α} {next nextToo : α → Run β}
    (leads : Leads alike first firstToo) (gives : Run.Gives good first)
    (leadsNext : ∀ result other, alike result other → good result →
      Leads alikeNext (next result) (nextToo other))
    (appendsNext : ∀ other, (nextToo other).Appends) :
    Leads alikeNext (first >>= next) (firstToo >>= nextToo) where
  appends := leads.appends.bind appendsNext
  attains store storeToo varies := by
    have attained := leads.attains store storeToo varies
    change Attains alikeNext (first.andThen next store) (firstToo.andThen nextToo storeToo)
    unfold Run.andThen
    rcases began : first store with ⟨outcome, middle⟩
    generalize firstToo storeToo = ended at attained ⊢
    rw [began] at attained
    cases attained with
    | done same variesLater =>
        exact (leadsNext _ _ same (gives store _ _ began)).attains _ _ variesLater
    | failed error variesLater => exact .failed error variesLater
    | running printed =>
        -- What comes next on the other side is not related to anything here, but it takes nothing back.
        refine .running ?_
        rcases ended with ⟨outcomeToo, middleToo⟩
        cases outcomeToo with
        | done other => exact printed.trans (appendsNext other middleToo)
        | failed error => exact printed
        | unfinished => exact printed

theorem bind [Std.Refl alike] {first firstToo : Run α} {next nextToo : α → Run β}
    (leads : Leads alike first firstToo)
    (leadsNext : ∀ result other, alike result other → Leads alikeNext (next result) (nextToo other)) :
    Leads alikeNext (first >>= next) (firstToo >>= nextToo) :=
  leads.andThen (Run.Gives.anything first) (fun result other same _ => leadsNext result other same)
    fun other => (leadsNext other other (Std.Refl.refl other)).appends

/-! ## Names -/

variable {value other : Value}

theorem declare (env : Env) (name : String) : Leads Eq (declare env name) (declare env name) where
  appends := .declare env name
  attains store storeToo varies := by
    cases env with
    | topLevel => exact .done rfl varies
    | inside names =>
        have same : Cells.declare (.inside names) name storeToo =
            (.done (.inside (names.insert name store.cells.size)),
              { storeToo with cells := storeToo.cells.push .nil }) := by
          rw [Cells.declare, varies.size]
        rw [same]
        exact .done rfl varies.addCell

theorem define (env : Env) (name : String) (same : value.Varies other) :
    Leads Eq (define env name value) (define env name other) where
  appends := .define env name other
  attains store storeToo varies := by
    unfold Cells.define
    cases env.find? name with
    | some cell => exact .done rfl (varies.setCell cell same)
    | none => exact .done rfl (varies.setGlobal name same)

theorem read (env : Env) (target : Identifier) :
    Leads Value.Varies (read env target) (read env target) where
  appends := .read env target
  attains store storeToo varies := by
    unfold Cells.read
    cases env.find? target.name with
    | some cell => exact .done (varies.cells cell) varies
    | none =>
        have globals := varies.globals target.name
        generalize store.globals.find? target.name = found at globals ⊢
        generalize storeToo.globals.find? target.name = foundToo at globals ⊢
        cases globals with
        | some same => exact .done same varies
        | none => exact .failed _ varies

theorem write (env : Env) (target : Identifier) (same : value.Varies other) :
    Leads Eq (write env target value) (write env target other) where
  appends := .write env target other
  attains store storeToo varies := by
    unfold Cells.write
    cases env.find? target.name with
    | some cell => exact .done rfl (varies.setCell cell same)
    | none =>
        have globals := varies.globals target.name
        generalize store.globals.find? target.name = found at globals ⊢
        generalize storeToo.globals.find? target.name = foundToo at globals ⊢
        cases globals with
        | some _ => exact .done rfl (varies.setGlobal target.name same)
        | none => exact .failed _ varies

theorem bindParameters (parameters : List Identifier) {arguments others : List Value}
    (same : List.Forall₂ Value.Varies arguments others) (env : Env) :
    Leads Eq (bindParameters parameters arguments env) (bindParameters parameters others env) := by
  induction parameters generalizing arguments others env with
  | nil => exact done rfl
  | cons parameter rest inductionHypothesis =>
      cases same with
      | nil => exact done rfl
      | cons sameFirst sameRest =>
          refine (declare env parameter.name).bind ?_
          rintro inner _ rfl
          refine (define inner parameter.name sameFirst).bind fun _ _ _ => ?_
          exact inductionHypothesis sameRest inner

/-! ## Functions and printing -/

theorem close (env : Env) (name : String) (parameters : List Identifier) {body bodyToo : List Stmt}
    (inside : Stmt.VaryAll body bodyToo) :
    Leads Value.Varies (close env name parameters body) (close env name parameters bodyToo) where
  appends := .close env name parameters bodyToo
  attains store storeToo varies := by
    have same : Cells.close env name parameters bodyToo storeToo =
        (.done (.function store.identity (.closure ⟨name, parameters, bodyToo, store.captured.size⟩)),
          { storeToo with
            captured := storeToo.captured.push env
            identity := storeToo.identity + 1 }) := by
      rw [Cells.close, varies.identity, varies.captured]
    rw [same]
    exact .done (.closure _ name parameters _ inside) (varies.capture env)

theorem capturedBy (closure closureToo : Closure) (same : closureToo.scope = closure.scope) :
    Leads Eq (capturedBy closure) (capturedBy closureToo) where
  appends := .capturedBy closureToo
  attains store storeToo varies := by
    refine .done ?_ varies
    rw [same, varies.captured]

theorem deliver (line : Nat) (result : Except RuntimeCause Value) :
    Leads Value.Varies (deliver line result) (deliver line result) := by
  cases result with
  | ok value => exact done (.refl value)
  | error cause => exact fail cause line

theorem printLine (line : Nat) (same : value.Varies other) :
    Leads Eq (printLine line value) (printLine line other) where
  appends := .printLine line other
  attains store storeToo varies := by
    unfold Cells.printLine
    rw [varies.sink, same.similar.render_eq]
    rcases store.sink.writeLine other.render with ⟨sink, _ | _⟩
    · exact .failed _ { varies with sink := rfl }
    · exact .done rfl { varies with sink := rfl }

end Leads

end Cells

end ScopedScript
