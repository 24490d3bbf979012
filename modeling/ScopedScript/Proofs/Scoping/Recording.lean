import ScopedScript.Proofs.Scoping.Bound
namespace ScopedScript

/-!
# Recording the references of unit after unit

The recorded distances accumulate over the units of a session.  Since every unit uses identities of its
own, recording one changes no answer about an earlier one, and every reference of the new unit is found
under the distance that was recorded for it.
-/

namespace Distances

variable {distances : Distances} {references : List Reference} {next after : RefId}

/-- What the recorded distances say of the references that have been read so far. -/
def knownBelow (distances : Distances) (next : RefId) : Known := fun ref distance =>
  ref < next ∧ distances.find? ref = distance

/-- Nothing is recorded for references that have not been read yet. -/
def BlankFrom (distances : Distances) (next : RefId) : Prop :=
  ∀ ref, next ≤ ref → distances.find? ref = none

theorem find?_recordAll_of_notMem {ref : RefId} (unlisted : ref ∉ references.map Reference.ref) :
    (distances.recordAll references).find? ref = distances.find? ref := by
  induction references generalizing distances with
  | nil => rfl
  | cons first rest inductionHypothesis =>
      rw [List.map_cons, List.mem_cons, not_or] at unlisted
      have later : ((distances.record first).recordAll rest).find? ref =
          (distances.record first).find? ref := inductionHypothesis unlisted.2
      rw [find?_record, if_neg (Ne.symm unlisted.1)] at later
      exact later

theorem find?_recordAll_of_mem {reference : Reference}
    (distinct : (references.map Reference.ref).Nodup) (listed : reference ∈ references)
    (blank : distances.find? reference.ref = none) :
    (distances.recordAll references).find? reference.ref = reference.distance? := by
  induction references generalizing distances with
  | nil => cases listed
  | cons first rest inductionHypothesis =>
      rw [List.map_cons, List.nodup_cons] at distinct
      change ((distances.record first).recordAll rest).find? reference.ref = _
      rcases List.mem_cons.mp listed with same | later
      · subst same
        rw [find?_recordAll_of_notMem distinct.1, find?_record, if_pos rfl, blank, Option.or_none]
      · refine inductionHypothesis distinct.2 later ?_
        have other : first.ref ≠ reference.ref := fun same =>
          distinct.1 (same ▸ List.mem_map_of_mem later)
        rw [find?_record, if_neg other]
        exact blank

/-- Recording a unit makes its references known, forgets nothing, and leaves the rest blank. -/
theorem recordAll_known (distinct : (references.map Reference.ref).Nodup)
    (bounds : ∀ ref ∈ references.map Reference.ref, next ≤ ref ∧ ref < after) (later : next ≤ after)
    (blank : distances.BlankFrom next) :
    (∀ reference ∈ references,
      (distances.recordAll references).knownBelow after reference.ref reference.distance?) ∧
    (∀ ref distance, distances.knownBelow next ref distance →
      (distances.recordAll references).knownBelow after ref distance) ∧
    (distances.recordAll references).BlankFrom after := by
  refine ⟨?_, ?_, ?_⟩
  · intro reference listed
    have inside := bounds _ (List.mem_map_of_mem listed)
    exact ⟨inside.2, find?_recordAll_of_mem distinct listed (blank _ inside.1)⟩
  · rintro ref distance ⟨below, found⟩
    refine ⟨Nat.lt_of_lt_of_le below later, ?_⟩
    rw [find?_recordAll_of_notMem]
    · exact found
    · intro listed
      exact Nat.lt_irrefl ref (Nat.lt_of_lt_of_le below (bounds ref listed).1)
  · intro ref beyond
    rw [find?_recordAll_of_notMem]
    · exact blank ref (Nat.le_trans later beyond)
    · intro listed
      exact Nat.lt_irrefl ref (Nat.lt_of_lt_of_le (bounds ref listed).2 beyond)

end Distances

end ScopedScript
