import ScopedScript.Proofs.Sites.Visiting
namespace ScopedScript

/-!
# What the scope analysis rejects

Three things can be wrong at a site of a program.  A program without any of them is accepted; otherwise the
analysis names the first site where one of them is.  `faults_exact` says both.
-/

open Site (fault? Clean namesIn)

/-- What is wrong at a site that comes behind the given ones. -/
inductive Fault (before : List Site) : Site → ScopeError → Prop where
  /-- A local scope declares a name again. -/
  | duplicate {scope : Position} {outer : List Position} {kind : DeclarationKind} {target : Identifier}
      (known : target.name ∈ namesIn scope before) :
      Fault before ⟨scope :: outer, .declares kind target⟩ ⟨.duplicateDeclaration, target⟩
  /-- The initializer of a local variable reads its name. -/
  | ownInitializer {scope : Position} {outer : List Position} {ref : RefId} {target : Identifier} :
      Fault before ⟨scope :: outer, .refers ref .read target (some target.name)⟩ ⟨.ownInitializer, target⟩
  /-- A `return` stands in no function. -/
  | outsideFunction {scopes : List Position} {line : Nat} :
      Fault before ⟨scopes, .returns line false⟩ ⟨.returnOutsideFunction, ⟨"return", line⟩⟩

/-- The error is the one at the first site of the program where something is wrong. -/
def FirstFault (program : List Stmt) (error : ScopeError) : Prop :=
  ∃ before site later, sites program = before ++ site :: later ∧ Fault before site error ∧
    ∀ earlier other between wrong, before = earlier ++ other :: between → ¬ Fault earlier other wrong

/-- No initializer of a local variable reads its name. -/
def InitializersReady (program : List Stmt) : Prop :=
  ∀ scopes ref target, ⟨scopes, .refers ref .read target (some target.name)⟩ ∈ sites program → scopes = []

/-- No local scope declares a name twice. -/
def DeclaredOnce (program : List Stmt) : Prop := ∀ scope, (namesIn scope (sites program)).Nodup

/-- Every `return` stands in a function. -/
def ReturnsInside (program : List Stmt) : Prop :=
  ∀ scopes line inFunction, ⟨scopes, .returns line inFunction⟩ ∈ sites program → inFunction = true

namespace Site

variable {before more : List Site} {site : Site} {error : ScopeError}

theorem fault?_eq_some_iff : fault? before site = some error ↔ Fault before site error := by
  constructor
  · intro wrong
    unfold fault? at wrong
    split at wrong
    case h_1 =>
      split at wrong
      · cases wrong
        exact .duplicate ‹_›
      · cases wrong
    case h_2 =>
      split at wrong
      · rename_i same
        cases wrong
        subst same
        exact .ownInitializer
      · cases wrong
    case h_3 =>
      cases wrong
      exact .outsideFunction
    case h_4 => cases wrong
  · rintro (known | _ | _)
    case duplicate => exact if_pos known
    case ownInitializer => exact if_pos rfl
    case outsideFunction scopes line => cases scopes <;> rfl

theorem clean_iff : Clean [] more ↔
    ∀ before site later error, more = before ++ site :: later → ¬ Fault before site error := by
  constructor
  · intro clean before site later error split wrong
    have nothing : fault? before site = none := clean before site later split
    rw [fault?_eq_some_iff.mpr wrong] at nothing
    cases nothing
  · intro right before site later split
    refine Option.eq_none_iff_forall_ne_some.mpr fun error wrong => ?_
    exact right before site later error split (fault?_eq_some_iff.mp wrong)

theorem nodup_namesIn_singleton (scope : Position) (site : Site) : (namesIn scope [site]).Nodup := by
  rw [namesIn, List.filterMap_cons]
  split
  · exact List.nodup_nil
  · exact List.pairwise_singleton _ _

/-- No name is declared twice in a scope when no declaration meets its name there. -/
theorem nodup_namesIn_iff (scope : Position) : (namesIn scope more).Nodup ↔
    ∀ before site later name, more = before ++ site :: later → site.declaration? = some (scope, name) →
      name ∉ namesIn scope before := by
  induction more using List.reverseRecOn with
  | nil =>
      refine ⟨fun _ before site later name split => ?_, fun _ => List.nodup_nil⟩
      cases before <;> cases split
  | append_singleton others last inductionHypothesis =>
      rw [namesIn_append, List.nodup_append, inductionHypothesis]
      constructor
      · rintro ⟨_, right, apart⟩ before site later name split declared
        rcases List.eq_nil_or_concat later with rfl | ⟨between, end_, rfl⟩
        · rcases List.append_inj' split rfl with ⟨rfl, same⟩
          cases same
          intro known
          exact apart name (mem_namesIn.mpr ⟨_, List.mem_singleton_self _, declared⟩) name known rfl
        · rw [List.concat_eq_append, ← List.cons_append, ← List.append_assoc] at split
          exact right before site between name (List.append_inj' split rfl).1 declared
      · intro right
        refine ⟨nodup_namesIn_singleton scope last, fun before site later name split => ?_, ?_⟩
        · exact right before site (later ++ [last]) name (by rw [split, List.append_assoc]; rfl)
        · intro name declared known knownToo same
          rcases mem_namesIn.mp declared with ⟨site, single, declares⟩
          rw [List.mem_singleton.mp single] at declares
          exact right others last [] name rfl declares (same ▸ knownToo)

/-- Nothing is wrong at any site exactly when none of the three things is wrong in the program. -/
theorem clean_sites_iff (program : List Stmt) : Clean [] (sites program) ↔
    InitializersReady program ∧ DeclaredOnce program ∧ ReturnsInside program := by
  rw [clean_iff]
  constructor
  · intro right
    refine ⟨fun scopes ref target member => ?_, fun scope => (nodup_namesIn_iff scope).mpr ?_,
      fun scopes line inFunction member => ?_⟩
    · rcases List.append_of_mem member with ⟨before, later, split⟩
      cases scopes with
      | nil => rfl
      | cons scope outer => exact absurd .ownInitializer (right before _ later _ split)
    · intro before site later name split declared known
      rcases site with ⟨_ | ⟨innermost, outer⟩, deed⟩
      · cases declared
      · cases deed <;> cases declared
        exact right before _ later _ split (.duplicate known)
    · rcases List.append_of_mem member with ⟨before, later, split⟩
      cases inFunction with
      | true => rfl
      | false => exact absurd .outsideFunction (right before _ later _ split)
  · rintro ⟨ready, once, inside⟩ before site later error split wrong
    have member : site ∈ sites program := split ▸ List.mem_append_right before List.mem_cons_self
    cases wrong with
    | duplicate known => exact (nodup_namesIn_iff _).mp (once _) before _ later _ split rfl known
    | ownInitializer => exact List.cons_ne_nil _ _ (ready _ _ _ member)
    | outsideFunction => exact Bool.false_ne_true (inside _ _ _ member)

end Site

theorem resolve_of_clean {program : List Stmt} (clean : Site.Clean [] (sites program)) :
    resolve program = .ok (Site.references [] (sites program)) := by
  rw [resolve_eq_visit, Site.visit_of_clean clean, List.append_nil, Except.map, List.reverse_reverse]

theorem resolve_of_firstFault {program : List Stmt} {error : ScopeError} (first : FirstFault program error) :
    resolve program = .error error := by
  rcases first with ⟨before, site, later, split, wrong, earliest⟩
  rw [resolve_eq_visit, split, Site.visit_of_fault (Site.clean_iff.mpr earliest) (Site.fault?_eq_some_iff.mpr wrong)]
  rfl

theorem clean_or_firstFault (program : List Stmt) :
    Site.Clean [] (sites program) ∨ ∃ error, FirstFault program error := by
  refine (Site.clean_or_fault [] (sites program)).imp_right ?_
  rintro ⟨before, site, later, error, split, clean, wrong⟩
  exact ⟨error, before, site, later, split, Site.fault?_eq_some_iff.mp wrong, Site.clean_iff.mp clean⟩

/-- What is accepted has nothing wrong in it, and its references are those at its sites. -/
theorem references_of_resolve {program : List Stmt} {references : List Reference}
    (accepted : resolve program = .ok references) :
    Site.Clean [] (sites program) ∧ references = Site.references [] (sites program) := by
  rcases clean_or_firstFault program with clean | ⟨wrong, first⟩
  · rw [resolve_of_clean clean] at accepted
    cases accepted
    exact ⟨clean, rfl⟩
  · rw [resolve_of_firstFault first] at accepted
    cases accepted

/-- The analysis accepts exactly the programs in which nothing is wrong at any site, and otherwise names the first
thing that is. -/
theorem faults_exact (program : List Stmt) :
    ((∃ references, resolve program = .ok references) ↔
      InitializersReady program ∧ DeclaredOnce program ∧ ReturnsInside program) ∧
    ∀ error, resolve program = .error error ↔ FirstFault program error := by
  rw [← Site.clean_sites_iff]
  rcases clean_or_firstFault program with clean | ⟨wrong, first⟩
  · have accepted := resolve_of_clean clean
    refine ⟨⟨fun _ => clean, fun _ => ⟨_, accepted⟩⟩, fun error => ⟨fun rejected => ?_, resolve_of_firstFault⟩⟩
    rw [accepted] at rejected
    cases rejected
  · have rejected := resolve_of_firstFault first
    refine ⟨⟨?_, fun clean => ⟨_, resolve_of_clean clean⟩⟩, fun error => ⟨fun other => ?_, resolve_of_firstFault⟩⟩
    · rintro ⟨references, accepted⟩
      exact (references_of_resolve accepted).1
    · rw [rejected] at other
      cases other
      exact first

/-- A block inside of a function may declare its parameter again, and the body of the function may not.  There the name
is found before the initializer that reads it, and before the `return` behind the function. -/
theorem faults_exact_parameter :
    let inside := Stmt.block [.declare ⟨"p", 2⟩ none]
    let again := Stmt.declare ⟨"p", 3⟩ (some (.variable 0 ⟨"p", 3⟩))
    let accepted := [Stmt.function ⟨"f", 1⟩ [⟨"p", 1⟩] [inside, .giveBack 3 none]]
    let rejected := [Stmt.function ⟨"f", 1⟩ [⟨"p", 1⟩] [inside, again], .giveBack 4 none]
    (InitializersReady accepted ∧ DeclaredOnce accepted ∧ ReturnsInside accepted) ∧
      FirstFault rejected ⟨.duplicateDeclaration, ⟨"p", 3⟩⟩ := by
  intro inside again accepted rejected
  exact ⟨(faults_exact accepted).1.mp ⟨_, rfl⟩, ((faults_exact rejected).2 _).mp rfl⟩

end ScopedScript
