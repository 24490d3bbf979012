import Mathlib.Data.List.Pairwise
import ScopedScript.Proofs.Grammar.ProgramSoundness
import ScopedScript.Proofs.Renaming.Trees
import ScopedScript.Proofs.Scoping.Recording
import ScopedScript.Proofs.Scoping.Resolved
import ScopedScript.Proofs.Sites.Faults
namespace ScopedScript

/-!
# The uses of a local variable

A reference is bound to the scope that its recorded distance leads to.  So a program says itself which of its
references mean a local variable: those with its name that are bound to its scope.  When a program is accepted, a
scope declares a name only once, and renaming the variable with these uses gives an alpha-equivalent program.
-/

namespace Site

/-- The identity of the reference at a site. -/
def ref? (site : Site) : Option RefId :=
  match site.deed with
  | .refers ref _ _ _ => some ref
  | _ => none

/-- The name at a site. -/
def name? (site : Site) : Option String :=
  match site.deed with
  | .declares _ target | .refers _ _ target _ => some target.name
  | .returns _ _ => none

theorem map_ref_references (visited more : List Site) :
    (references visited more).map Reference.ref = more.filterMap ref? := by
  induction more generalizing visited with
  | nil => rfl
  | cons site rest inductionHypothesis =>
      rw [references, List.map_append, inductionHypothesis, List.filterMap_cons]
      rcases site with ⟨scopes, _ | _ | _⟩ <;> rfl

end Site

/-- The names that stand anywhere in a program. -/
def namesOf (program : List Stmt) : List String := (sites program).filterMap Site.name?

/-- The references of a program with this name that are bound to this scope. -/
def boundTo (distances : Distances) (program : List Stmt) (scope : Position) (name : String) : List RefId :=
  (sites program).filterMap fun site =>
    match site.deed with
    | .refers ref _ target _ =>
      if target.name = name ∧ (distances.find? ref).bind (site.scopes[·]?) = some scope then some ref else none
    | _ => none

/-- Another name for what a scope of a program declares under a name. -/
def Renaming.of (distances : Distances) (program : List Stmt) (scope : Position) (name newName : String) :
    Renaming :=
  ⟨scope, name, newName, boundTo distances program scope name⟩

/-- What a list has under a key only once is found there once. -/
theorem eq_of_nodup_filterMap {α β : Type} {key? : α → Option β} {items : List α}
    (distinct : (items.filterMap key?).Nodup) {first second : α} {key : β} (firstThere : first ∈ items)
    (secondThere : second ∈ items) (firstHas : key? first = some key) (secondHas : key? second = some key) :
    first = second := by
  by_contra different
  have apart := List.pairwise_filterMap.mp distinct
  have : Std.Symm fun one other => ∀ key, key? one = some key → ∀ keyToo, key? other = some keyToo → key ≠ keyToo :=
    ⟨fun _ _ apart key has keyToo hasToo => (apart keyToo hasToo key has).symm⟩
  exact apart.forall firstThere secondThere different key firstHas key secondHas rfl

variable {program : List Stmt} {references : List Reference} {scope : Position} {distances : Distances}
  {outer : List Position} {kind : DeclarationKind} {target : Identifier} {newName : String}

theorem mem_boundTo {ref : RefId} {name : String} : ref ∈ boundTo distances program scope name ↔
    ∃ scopes access target owner, ⟨scopes, .refers ref access target owner⟩ ∈ sites program ∧
      target.name = name ∧ (distances.find? ref).bind (scopes[·]?) = some scope := by
  rw [boundTo, List.mem_filterMap]
  constructor
  · rintro ⟨⟨scopes, deed⟩, member, made⟩
    cases deed with
    | refers other access target owner =>
        dsimp only at made
        split at made
        · rename_i bound
          cases made
          exact ⟨scopes, access, target, owner, member, bound⟩
        · cases made
    | _ => cases made
  · rintro ⟨scopes, access, target, owner, member, bound⟩
    exact ⟨_, member, if_pos bound⟩

/-- In an accepted program, renaming a variable or parameter changes what it has to. -/
theorem suits_sites (distances : Distances) (accepted : resolve program = .ok references)
    (distinct : (references.map Reference.ref).Nodup)
    (declared : ⟨scope :: outer, .declares kind target⟩ ∈ sites program) (notFunction : kind ≠ .function)
    (unused : newName ∉ namesOf program) :
    ∀ site ∈ sites program, (Renaming.of distances program scope target.name newName).Suits distances site := by
  rcases references_of_resolve accepted with ⟨clean, rfl⟩
  have once := ((Site.clean_sites_iff program).mp clean).2.1 scope
  rw [Site.map_ref_references] at distinct
  rintro ⟨scopes, deed⟩ member
  have different (other : Identifier) (stands : (Site.mk scopes deed).name? = some other.name) :
      other.name ≠ newName := fun same =>
    unused (List.mem_filterMap.mpr ⟨_, member, stands.trans (congrArg some same)⟩)
  cases deed with
  | declares otherKind other =>
      refine ⟨different other rfl, ?_⟩
      rintro rfl
      cases scopes with
      | nil => rfl
      | cons innermost around =>
          refine congrArg (Identifier.mk · other.line) (if_neg ?_)
          rintro ⟨rfl, sameName⟩
          have again := eq_of_nodup_filterMap (List.nodup_reverse.mp once) member declared (if_pos rfl)
            ((if_pos rfl).trans (congrArg some sameName.symm))
          cases again
          exact notFunction rfl
  | refers ref access other owner =>
      refine ⟨different other rfl, mem_boundTo.trans ⟨?_, fun bound => ⟨scopes, access, other, owner, member, bound⟩⟩⟩
      rintro ⟨scopesToo, accessToo, otherToo, ownerToo, memberToo, bound⟩
      cases eq_of_nodup_filterMap distinct memberToo member rfl rfl
      exact bound
  | returns line inFunction => trivial

end ScopedScript
