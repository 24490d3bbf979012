import ScopedScript.Proofs.Relabeling.Analysis
import ScopedScript.Proofs.Relabeling.ProgramReading
import ScopedScript.Proofs.Relabeling.Steps
import ScopedScript.Session
namespace ScopedScript

/-!
# Units under a relabeling

What the parser, the scope analysis and the machine do under a relabeling, put together for a whole unit:
a text is read alike whatever identities come next, its distances are recorded under the new identities,
and what becomes of a relabeled run is what becomes of the run, on other lines.
-/

/-! ## Reading -/

theorem readProgram_of_tokenize {source : String} {stream : TokenStream} {next : RefId}
    {result : List Stmt × RefId} (cut : tokenize source = .ok stream)
    (parsed : parse stream.tokens next = .ok result) : readProgram source next = .ok result := by
  rw [readProgram, cut]
  dsimp only
  rw [parsed]

/-- A text that is read has been cut into tokens that are parsed. -/
theorem tokenize_of_readProgram {source : String} {next : RefId} {result : List Stmt × RefId}
    (found : readProgram source next = .ok result) :
    ∃ stream, tokenize source = .ok stream ∧ parse stream.tokens next = .ok result := by
  unfold readProgram at found
  split at found
  · cases found
  · rename_i stream cut
    split at found
    · cases found
    · rename_i result parsed
      cases found
      exact ⟨stream, cut, parsed⟩

/-- Whether a text can be read does not depend on the identities to come. -/
theorem readProgram_anywhere {source : String} {next : RefId} {result : List Stmt × RefId}
    (found : readProgram source next = .ok result) (other : RefId) :
    ∃ program after, readProgram source other = .ok (program, after) := by
  rcases tokenize_of_readProgram found with ⟨stream, cut, parsed⟩
  have shown := (parse_accepts_iff stream.tokens next).mp ⟨result.1, result.2, parsed⟩
  rcases (parse_accepts_iff stream.tokens other).mpr shown with ⟨program, after, parsedToo⟩
  exact ⟨program, after, readProgram_of_tokenize cut parsedToo⟩

/-- Behind more references, a text gives the same program with larger identities. -/
theorem readProgram_offset {source : String} {next after : RefId} {program : List Stmt}
    (offset : RefId) (found : readProgram source next = .ok (program, after)) :
    readProgram source (offset + next) =
      .ok (Stmt.relabelAll (.ofRefs (offset + ·)) program, offset + after) := by
  rcases tokenize_of_readProgram found with ⟨stream, cut, parsed⟩
  refine readProgram_of_tokenize cut ?_
  let place : Place := ⟨id, offset, []⟩
  have unmoved : place.tokens stream.tokens = stream.tokens :=
    (List.append_nil _).trans (List.map_id stream.tokens)
  have placed : parse (place.tokens stream.tokens) (offset + next) = _ :=
    parse_placed_alone parsed rfl
  rwa [unmoved] at placed

/-! ## Distances -/

namespace Distances

variable {clean full : Distances}

/-- Relabeled references are recorded under their new identities. -/
theorem find?_recordAll_relabel {r : Relabeling} (distinct : Function.Injective r.ref) {ref : RefId}
    (same : full.find? (r.ref ref) = clean.find? ref) (references : List Reference) :
    (full.recordAll (references.map (Reference.relabel r))).find? (r.ref ref) =
      (clean.recordAll references).find? ref := by
  induction references generalizing clean full with
  | nil => exact same
  | cons first rest inductionHypothesis =>
      refine inductionHypothesis ?_
      rw [find?_record, find?_record, same]
      exact if_congr distinct.eq_iff rfl rfl

/-- References in two parts are recorded one part after the other. -/
theorem recordAll_append (distances : Distances) (references more : List Reference) :
    distances.recordAll (references ++ more) = (distances.recordAll references).recordAll more :=
  List.foldl_append

/-- Where a reference stands does not matter when it is recorded. -/
theorem recordAll_ofLines (line : Nat → Nat) (distances : Distances) (references : List Reference) :
    distances.recordAll (references.map (Reference.relabel (.ofLines line))) =
      distances.recordAll references := by
  induction references generalizing distances with
  | nil => rfl
  | cons first rest inductionHypothesis => exact inductionHypothesis (distances.record first)

end Distances

/-! ## Results -/

namespace UnitResult

/-- What becomes of a relabeled unit. -/
def relabel (r : Relabeling) : UnitResult → UnitResult
  | finished => finished
  | rejected error => rejected error
  | failed failure => failed (failure.relabel r)
  | unfinished => unfinished

/-- Identities do not show in a result. -/
theorem relabel_ofRefs (ref : RefId → RefId) (result : UnitResult) :
    result.relabel (.ofRefs ref) = result := by
  rcases result with _ | _ | failure | _
  · rfl
  · rfl
  · cases failure <;> rfl
  · rfl

end UnitResult

namespace Session

variable {r : Relabeling} {d : Distances}

/-- What becomes of a relabeled run.  Line 0, where a failed flush is reported, must stay what it is. -/
theorem conclude_relabel (session : Session) (config : Config) (outside : r.line 0 = 0) :
    session.conclude (config.relabel r d) =
      (⟨config.state.relabel r d, session.next⟩, (session.conclude config).2.relabel r) := by
  refine Prod.ext rfl ?_
  rcases config with ⟨state, focus⟩
  have flush : UnitResult.ofEnding ((state.relabel r d).flushed (.done .normal)) =
      (UnitResult.ofEnding (state.flushed (.done .normal))).relabel r := by
    unfold State.flushed
    change UnitResult.ofEnding (if state.sink.flushFails then _ else _) = _
    split
    · exact congrArg (fun line => UnitResult.failed (.runtime ⟨.output Sink.flushReason, line⟩))
        outside.symm
    · rfl
  cases focus with
  | flow flow stack =>
      cases stack with
      | bottom => exact flush
      | _ => rfl
  | unwindFlow failure stack => cases stack <;> rfl
  | _ => rfl

end Session

end ScopedScript
