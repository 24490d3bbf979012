import ScopedScript.Proofs.Grammar.ProgramSoundness
import ScopedScript.Proofs.Scoping.Recording
import ScopedScript.Proofs.Scoping.Resolved
import ScopedScript.Proofs.Sites.Faults
namespace ScopedScript

/-!
# Which distances the scope analysis records

A reference to a local variable is recorded with the number of scopes between it and the nearest scope that has
declared its name by then.  Nothing else is recorded: `distances_exact`.
-/

open Site (namesIn chain reference?)

/-- The scope at this distance has declared the name, and no nearer scope has. -/
def Nearest (before : List Site) (scopes : List Position) (name : String) (distance : Nat) : Prop :=
  (∃ scope, scopes[distance]? = some scope ∧ name ∈ namesIn scope before) ∧
    ∀ nearer < distance, ∀ scope, scopes[nearer]? = some scope → name ∉ namesIn scope before

variable {before : List Site} {scopes : List Position} {name : String} {distance : Nat}

theorem distance?_eq_some_iff :
    Resolution.distance? (chain before scopes) name = some distance ↔ Nearest before scopes name distance := by
  rw [Resolution.distance?, List.findIdx?_eq_some_iff_getElem, Nearest]
  simp only [chain, List.getElem_map, List.contains_iff_mem, List.getElem?_eq_some_iff, List.length_map]
  constructor
  · rintro ⟨within, known, first⟩
    refine ⟨⟨scopes[distance], ⟨within, rfl⟩, known⟩, ?_⟩
    rintro nearer closer _ ⟨_, rfl⟩
    exact first nearer closer
  · rintro ⟨⟨_, ⟨within, rfl⟩, known⟩, first⟩
    exact ⟨within, known, fun nearer closer => first nearer closer _ ⟨closer.trans within, rfl⟩⟩

theorem distance?_isSome_iff :
    (∃ distance, Resolution.distance? (chain before scopes) name = some distance) ↔
      ∃ scope ∈ scopes, name ∈ namesIn scope before := by
  rw [← Option.isSome_iff_exists, Resolution.distance?, List.findIdx?_isSome, chain, List.any_map]
  simp

/-- A reference has an entry exactly when a scope around it has declared its name by then; the entry is the number
of scopes inside the nearest such scope; and only references have entries. -/
theorem distances_exact {tokens : List Token} {next after : RefId} {program : List Stmt}
    {references : List Reference} (read : parse tokens next = .ok (program, after))
    (accepted : resolve program = .ok references) :
    let table := Distances.empty.recordAll references
    (∀ before scopes ref access target owner later,
      sites program = before ++ ⟨scopes, .refers ref access target owner⟩ :: later →
        ((∃ distance, table.find? ref = some distance) ↔ ∃ scope ∈ scopes, target.name ∈ namesIn scope before) ∧
        ∀ distance, table.find? ref = some distance → Nearest before scopes target.name distance) ∧
    ∀ ref distance, table.find? ref = some distance →
      ∃ scopes access target owner, ⟨scopes, .refers ref access target owner⟩ ∈ sites program := by
  intro table
  rcases references_of_resolve accepted with ⟨_, rfl⟩
  have listed := (resolve_ok (parse_sound read).1 accepted).1
  have distinct := (refs_of_parse read).nodup
  rw [← listed] at distinct
  refine ⟨fun before scopes ref access target owner later split => ?_, fun ref distance found => ?_⟩
  · have member : ⟨ref, access, target, Resolution.distance? (chain before scopes) target.name⟩ ∈
        Site.references [] (sites program) := Site.mem_references.mpr ⟨before, _, later, split, rfl⟩
    have found : table.find? ref = Resolution.distance? (chain before scopes) target.name :=
      Distances.find?_recordAll_of_mem distinct member rfl
    rw [found]
    exact ⟨distance?_isSome_iff, fun distance => distance?_eq_some_iff.mp⟩
  · by_contra elsewhere
    rw [Distances.find?_recordAll_of_notMem] at found
    · cases found
    · intro noted
      rcases List.mem_map.mp noted with ⟨reference, member, rfl⟩
      rcases Site.mem_references.mp member with ⟨before, ⟨scopes, deed⟩, later, split, same⟩
      cases deed <;> cases same
      exact elsewhere ⟨_, _, _, _, split ▸ List.mem_append_right before List.mem_cons_self⟩

/-- The body of a function writes a variable of the block around it. -/
theorem distances_exact_captured :
    let tokens : List Token := [
      ⟨.symbol .leftBrace, 1⟩,
      ⟨.keyword .varWord, 1⟩, ⟨.identifier "x", 1⟩, ⟨.symbol .semicolon, 1⟩,
      ⟨.keyword .funWord, 2⟩, ⟨.identifier "f", 2⟩, ⟨.symbol .leftParen, 2⟩, ⟨.identifier "y", 2⟩,
      ⟨.symbol .rightParen, 2⟩, ⟨.symbol .leftBrace, 2⟩,
      ⟨.identifier "x", 3⟩, ⟨.symbol .equal, 3⟩, ⟨.identifier "y", 3⟩, ⟨.symbol .semicolon, 3⟩,
      ⟨.symbol .rightBrace, 4⟩, ⟨.symbol .rightBrace, 5⟩]
    let program := [Stmt.block [
      .declare ⟨"x", 1⟩ none,
      .function ⟨"f", 2⟩ [⟨"y", 2⟩] [.expression (.assign 2 ⟨"x", 3⟩ (.variable 1 ⟨"y", 3⟩))]]]
    let references := [⟨1, .read, ⟨"y", 3⟩, some 0⟩, ⟨2, .write, ⟨"x", 3⟩, some 1⟩]
    let before : List Site := [
      ⟨[[0]], .declares .variable ⟨"x", 1⟩⟩,
      ⟨[[0]], .declares .function ⟨"f", 2⟩⟩,
      ⟨[[1, 0], [0]], .declares .parameter ⟨"y", 2⟩⟩,
      ⟨[[1, 0], [0]], .refers 1 .read ⟨"y", 3⟩ none⟩]
    parse tokens 0 = .ok (program, 3) ∧ resolve program = .ok references ∧
      ∃ distance, (Distances.empty.recordAll references).find? 2 = some distance ∧
        Nearest before [[1, 0], [0]] "x" distance := by
  intro tokens program references before
  have read : parse tokens 0 = .ok (program, 3) := by
    unfold tokens program
    cbv
  have accepted : resolve program = .ok references := rfl
  refine ⟨read, accepted, ?_⟩
  have entry := (distances_exact read accepted).1 before [[1, 0], [0]] 2 .write ⟨"x", 3⟩ none [] rfl
  rcases entry.1.mpr ⟨[0], by decide, by decide⟩ with ⟨distance, found⟩
  exact ⟨distance, found, entry.2 distance found⟩

end ScopedScript
