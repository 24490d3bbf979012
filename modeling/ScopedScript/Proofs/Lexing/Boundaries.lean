import ScopedScript.Proofs.Lexing.Encoding
import ScopedScript.Proofs.Lexing.Pieces
namespace ScopedScript

/-!
# Boundaries of a text

A position of a text is a boundary between two of its characters, and stands behind as many bytes as the characters
in front of it have.
-/

namespace Lexer

variable {source : String}

/-- The line on which a position of a text lies. -/
def lineAt (position : source.Pos) : Nat :=
  1 + (String.extract source.startPos position).toList.count '\n'

/-- A position with the characters before it and behind it. -/
def Splits (position : source.Pos) (front back : List Char) : Prop :=
  position.Splits (String.ofList front) (String.ofList back)

theorem exists_splits {front back : List Char} (parts : source.toList = front ++ back) :
    ∃ position : source.Pos, Splits position front back := by
  have joined : source = String.ofList front ++ String.ofList back := by
    rw [← String.ofList_append, ← parts, String.ofList_toList]
  exact ⟨String.Pos.ofEqAppend joined, String.Pos.splits_ofEqAppend joined⟩

theorem Splits.toList_eq {position : source.Pos} {front back : List Char}
    (split : Splits position front back) : source.toList = front ++ back := by
  have joined := congrArg String.toList split.eq_append
  rwa [String.toList_append, String.toList_ofList, String.toList_ofList] at joined

section Between

variable {start stop : source.Pos} {front between back : List Char}

theorem Splits.le (before : Splits start front (between ++ back))
    (after : Splits stop (front ++ between) back) : start ≤ stop :=
  (String.Pos.Splits.le_iff_exists_eq_append before after).mpr
    ⟨String.ofList between, String.ofList_append, String.ofList_append⟩

theorem Splits.lt (before : Splits start front (between ++ back))
    (after : Splits stop (front ++ between) back) (filled : between ≠ []) : start < stop := by
  refine (String.Pos.Splits.lt_iff_exists_eq_append before after).mpr
    ⟨String.ofList between, ?_, String.ofList_append, String.ofList_append⟩
  intro empty
  have noCharacters := congrArg String.toList empty
  rw [String.toList_ofList] at noCharacters
  exact filled noCharacters

/-- What stands between two positions. -/
theorem Splits.extract_eq (before : Splits start front (between ++ back))
    (after : Splits stop (front ++ between) back) :
    String.extract start stop = String.ofList between := by
  rw [Splits, String.ofList_append] at before after
  rcases String.copy_slice_eq_iff_splits.mpr ⟨_, _, before, after⟩ with ⟨inOrder, text⟩
  rw [String.extract_eq_copy_slice start stop inOrder, text]

end Between

theorem splits_startPos : Splits source.startPos [] source.toList := by
  rw [Splits, String.ofList_toList]
  exact String.splits_startPos source

theorem splits_endPos : Splits source.endPos source.toList [] := by
  rw [Splits, String.ofList_toList]
  exact String.splits_endPos source

/-- Only the end of a text has nothing behind it. -/
theorem Splits.eq_endPos {position : source.Pos} {front : List Char}
    (split : Splits position front []) : position = source.endPos := by
  have whole := split.toList_eq
  rw [List.append_nil] at whole
  subst whole
  exact String.Pos.Splits.pos_eq split splits_endPos

/-- What stands behind a position. -/
theorem Splits.extract_endPos {position : source.Pos} {front back : List Char}
    (split : Splits position front back) :
    String.extract position source.endPos = String.ofList back := by
  have atEnd : Splits source.endPos (front ++ back) [] := by
    rw [← split.toList_eq]
    exact splits_endPos
  have whole : Splits position front (back ++ []) := by rwa [List.append_nil]
  exact whole.extract_eq atEnd

theorem Splits.lineAt_eq {position : source.Pos} {front back : List Char}
    (split : Splits position front back) : lineAt position = 1 + newlines front := by
  have whole : Splits source.startPos [] (front ++ back) := by
    rw [← split.toList_eq]
    exact splits_startPos
  rw [lineAt, whole.extract_eq split, String.toList_ofList]
  rfl

/-- How many bytes stand in front of a position. -/
theorem Splits.offset_eq {position : source.Pos} {front back : List Char} (split : Splits position front back) :
    position.offset.byteIdx = byteLength front := by
  rw [split.offset_eq_rawEndPos, String.byteIdx_rawEndPos, utf8ByteSize_ofList]

/-- The character that stands behind a position. -/
theorem Splits.get_eq {position : source.Pos} {front back : List Char} {c : Char}
    (split : Splits position front (c :: back)) (inside : position ≠ source.endPos) : position.get inside = c := by
  have parts : position.Splits (String.ofList front) (String.singleton c ++ String.ofList back) := by
    have joined := split
    rwa [Splits, ← List.singleton_append, String.ofList_append] at joined
  exact parts.next.get_eq_of_singleton

theorem Splits.ne_endPos {position : source.Pos} {front back : List Char} {c : Char}
    (split : Splits position front (c :: back)) : position ≠ source.endPos := by
  rw [ne_eq, String.Pos.Splits.eq_endPos_iff split]
  intro empty
  have noCharacters := congrArg String.toList empty
  rw [String.toList_ofList] at noCharacters
  cases noCharacters

end Lexer

end ScopedScript
