import ScopedScript.Proofs.Lexing.Boundaries
namespace ScopedScript

/-!
# The cursor of a lexer

A cursor that stands between two characters of its text passes whole characters only.  `Stands` says where a cursor
stands, and `Passes` what it passed: it counted the lines of these characters and changed nothing else.  Each
procedure of a lexer has one lemma, which tells the characters it passes.
-/

namespace Lexer

/-- The cursor stands behind some characters of its text and in front of the others. -/
structure Stands (lexer : Lexer) (front back : List Char) : Prop where
  text : lexer.text.toList = front ++ back
  bytes : lexer.bytes = lexer.text.toUTF8
  position : lexer.position = byteLength front

/-- The cursor passed characters and counted their lines. -/
structure Passes (lexer after : Lexer) (front text back : List Char) : Prop where
  stands : after.Stands (front ++ text) back
  sameText : after.text = lexer.text
  start : after.start = lexer.start
  line : after.line = lexer.line + newlines text
  done : after.done = lexer.done

variable {lexer after : Lexer} {front text between back : List Char} {c : Char}

theorem stands_ofText (source : String) : (ofText source).Stands [] source.toList := ⟨rfl, rfl, rfl⟩

theorem Stands.passes_nil (stands : lexer.Stands front back) : lexer.Passes lexer front [] back where
  stands := by rwa [List.append_nil]
  sameText := rfl
  start := rfl
  line := rfl
  done := rfl

theorem Passes.trans {further : Lexer} {more : List Char} (passes : lexer.Passes after front text (more ++ back))
    (passesToo : after.Passes further (front ++ text) more back) : lexer.Passes further front (text ++ more) back where
  stands := by
    rw [← List.append_assoc]
    exact passesToo.stands
  sameText := passesToo.sameText.trans passes.sameText
  start := passesToo.start.trans passes.start
  line := by rw [passesToo.line, passes.line, newlines_append, Nat.add_assoc]
  done := passesToo.done.trans passes.done

/-! ## Looking at bytes -/

theorem Stands.toList_bytes (stands : lexer.Stands front back) :
    lexer.bytes.data.toList = encoded front ++ encoded back := by
  rw [stands.bytes, toList_toUTF8, stands.text, encoded_append]

theorem Stands.size_eq (stands : lexer.Stands front back) : lexer.bytes.size = byteLength front + byteLength back := by
  rw [← ByteArray.size_data, ← Array.length_toList, stands.toList_bytes, List.length_append]
  rfl

theorem Stands.le_size (stands : lexer.Stands front back) : lexer.position ≤ lexer.bytes.size := by
  rw [stands.position, stands.size_eq]
  exact Nat.le_add_right _ _

theorem Stands.getElem?_eq (stands : lexer.Stands front back) (ahead : Nat) :
    lexer.bytes.data.toList[lexer.position + ahead]? = (encoded back)[ahead]? := by
  have behind : (encoded front).length ≤ lexer.position + ahead := by
    rw [stands.position]
    exact Nat.le_add_right _ _
  rw [stands.toList_bytes, List.getElem?_append_right behind, stands.position]
  exact congrArg ((encoded back)[·]?) (Nat.add_sub_cancel_left _ _)

theorem Stands.peekAt_eq (stands : lexer.Stands front back) (ahead : Nat) :
    lexer.peekAt ahead = (encoded back)[ahead]?.getD 0 := by
  rw [← stands.getElem?_eq, peekAt]
  split
  · rename_i inside
    rw [ByteArray.getElem_eq_getElem_data, ← Array.getElem_toList, List.getElem?_eq_getElem, Option.getD_some]
  · rename_i outside
    rw [List.getElem?_eq_none, Option.getD_none]
    exact Nat.le_of_not_lt outside

/-- The byte under the cursor begins the next character. -/
theorem Stands.leading (stands : lexer.Stands front (c :: back)) : Leading (lexer.peekAt 0) c := by
  rcases exists_leading c with ⟨byte, more, parts, leading⟩
  rw [stands.peekAt_eq, encoded_cons, parts]
  exact leading

theorem Stands.meets_eq (stands : lexer.Stands front back) (these : Passable) :
    lexer.meets these 0 = back.head?.any these.includes := by
  cases back with
  | nil =>
      rw [meets, stands.peekAt_eq]
      exact these.zero
  | cons c back => exact stands.leading.test_eq these.ascii

/-- A byte that is no end of a text is that of the next character. -/
theorem Stands.peekAt_eq_iff (stands : lexer.Stands front back) {d : Char} (ascii : d.toNat < 128)
    (noEnd : d.toUInt8 ≠ 0) : lexer.peekAt 0 = d.toUInt8 ↔ ∃ more, back = d :: more := by
  rw [← List.head?_eq_some_iff]
  cases back with
  | nil =>
      rw [stands.peekAt_eq]
      exact ⟨fun zero => absurd zero.symm noEnd, fun none => absurd none (Option.some_ne_none d).symm⟩
  | cons c back => rw [stands.leading.byte_eq_iff ascii, List.head?_cons, Option.some_inj]

theorem Stands.isAtEnd_nil (stands : lexer.Stands front []) : lexer.isAtEnd = true := by
  rw [isAtEnd, decide_eq_true_iff, stands.size_eq, stands.position]
  exact Nat.le_refl _

theorem Stands.isAtEnd_cons (stands : lexer.Stands front (c :: back)) : lexer.isAtEnd = false := by
  rw [isAtEnd, decide_eq_false_iff_not, stands.size_eq, stands.position, Nat.not_le]
  exact Nat.lt_add_of_pos_right (byteLength_cons_pos c back)

/-! ## Passing bytes -/

theorem Stands.moved (stands : lexer.Stands front (c :: back)) (ascii : c.toNat < 128) :
    Stands { lexer with position := lexer.position + 1 } (front ++ [c]) back where
  text := by
    rw [List.append_assoc]
    exact stands.text
  bytes := stands.bytes
  position := by
    rw [byteLength_append, byteLength_singleton, utf8Size_of_ascii ascii, ← stands.position]

theorem Stands.passes_moved (stands : lexer.Stands front (c :: back)) (ascii : c.toNat < 128) (oneLine : c ≠ '\n') :
    lexer.Passes { lexer with position := lexer.position + 1 } front [c] back where
  stands := stands.moved ascii
  sameText := rfl
  start := rfl
  line := by
    rw [newlines, List.count_singleton, if_neg (by simpa using oneLine)]
    rfl
  done := rfl

theorem Stands.passes_newline (stands : lexer.Stands front ('\n' :: back)) :
    lexer.Passes { lexer with position := lexer.position + 1, line := lexer.line + 1 } front ['\n'] back where
  stands := ⟨(stands.moved (by decide)).text, stands.bytes, (stands.moved (by decide)).position⟩
  sameText := rfl
  start := rfl
  line := rfl
  done := rfl

/-- Only these characters are passed, and the next one is none of them. -/
theorem passes_pass (these : Passable) (oneLine : these.includes '\n' = false) (stands : lexer.Stands front back) :
    lexer.Passes (lexer.pass these) front (back.takeWhile these.includes) (back.dropWhile these.includes) := by
  induction back generalizing lexer front with
  | nil =>
      rw [pass, dif_neg (by rw [stands.meets_eq]; exact Bool.false_ne_true)]
      exact stands.passes_nil
  | cons c back inductionHypothesis =>
      rw [pass]
      cases included : these.includes c with
      | false =>
          rw [dif_neg (by rw [stands.meets_eq, List.head?_cons, Option.any_some, included]; exact Bool.false_ne_true),
            List.takeWhile_cons_of_neg (by simp [included]), List.dropWhile_cons_of_neg (by simp [included])]
          exact stands.passes_nil
      | true =>
          rw [dif_pos (by rw [stands.meets_eq, List.head?_cons, Option.any_some, included]),
            List.takeWhile_cons_of_pos included, List.dropWhile_cons_of_pos included]
          have noNewline : c ≠ '\n' := by
            rintro rfl
            rw [oneLine] at included
            cases included
          have ascii := these.ascii c included
          have here := stands.passes_moved ascii noNewline
          rw [← List.takeWhile_append_dropWhile (p := these.includes) (l := back)] at here
          exact here.trans (inductionHypothesis (stands.moved ascii))

/-- Characters may be passed at once, when their lines are counted. -/
theorem Stands.passes_jump (stands : lexer.Stands front (text ++ back)) :
    lexer.Passes
      { lexer with position := byteLength (front ++ text), line := lexer.line + newlines text } front text back where
  stands := {
    text := by
      rw [List.append_assoc]
      exact stands.text
    bytes := stands.bytes
    position := rfl }
  sameText := rfl
  start := rfl
  line := rfl
  done := rfl

/-! ## Slices -/

theorem slice_eq (parts : lexer.text.toList = front ++ (between ++ back)) :
    lexer.slice (byteLength front) (byteLength (front ++ between)) = .ok (String.ofList between) := by
  rcases exists_splits parts with ⟨start, before⟩
  rw [← List.append_assoc] at parts
  rcases exists_splits parts with ⟨stop, behind⟩
  have valid : String.Pos.Raw.IsValid lexer.text ⟨byteLength front⟩ ∧
      String.Pos.Raw.IsValid lexer.text ⟨byteLength (front ++ between)⟩ ∧
        byteLength front ≤ byteLength (front ++ between) := by
    rw [← before.offset_eq, ← behind.offset_eq]
    exact ⟨start.isValid, stop.isValid, before.le behind⟩
  have startEq : (⟨⟨byteLength front⟩, valid.1⟩ : lexer.text.Pos) = start :=
    String.Pos.ext (String.Pos.Raw.ext before.offset_eq.symm)
  have stopEq : (⟨⟨byteLength (front ++ between)⟩, valid.2.1⟩ : lexer.text.Pos) = stop :=
    String.Pos.ext (String.Pos.Raw.ext behind.offset_eq.symm)
  rw [slice, dif_pos valid, startEq, stopEq, before.extract_eq behind]

/-- The slice of what was passed. -/
theorem Passes.sliced (passes : lexer.Passes after front text back) (marked : lexer.start = byteLength front) :
    after.slice after.start after.position = .ok (String.ofList text) := by
  rw [passes.start, marked, passes.stands.position]
  have parts := passes.stands.text
  rw [List.append_assoc] at parts
  exact slice_eq parts

theorem character?_eq (parts : lexer.text.toList = front ++ c :: back) :
    lexer.character? (byteLength front) = .ok (some c) := by
  rcases exists_splits parts with ⟨position, split⟩
  have valid : String.Pos.Raw.IsValid lexer.text ⟨byteLength front⟩ := by
    rw [← split.offset_eq]
    exact position.isValid
  have positionEq : (⟨⟨byteLength front⟩, valid⟩ : lexer.text.Pos) = position :=
    String.Pos.ext (String.Pos.Raw.ext split.offset_eq.symm)
  rw [character?, dif_pos valid]
  dsimp only
  rw [positionEq, dif_pos split.ne_endPos, split.get_eq]

/-! ## Jumps -/

section Jumps

variable {byte : UInt8} {bytes : ByteArray} {before skipped behind : List UInt8}

theorem placeOf?_size (byte : UInt8) (bytes : ByteArray) : placeOf? byte bytes bytes.size = none := by
  rw [placeOf?, dif_neg (Nat.lt_irrefl _)]

theorem placeOf?_of_cons {found : UInt8} (parts : bytes.data.toList = before ++ found :: behind) :
    placeOf? byte bytes before.length =
      if found = byte then some before.length else placeOf? byte bytes (before.length + 1) := by
  have inside : before.length < bytes.size := by
    rw [← ByteArray.size_data, ← Array.length_toList, parts, List.length_append]
    exact Nat.lt_add_of_pos_right (Nat.succ_pos _)
  have here : bytes[before.length] = found := by
    rw [ByteArray.getElem_eq_getElem_data, ← Array.getElem_toList]
    simp [parts]
  rw [placeOf?, dif_pos inside, here]

/-- The search goes past bytes that are others. -/
theorem placeOf?_skip (parts : bytes.data.toList = before ++ (skipped ++ behind)) (others : byte ∉ skipped) :
    placeOf? byte bytes before.length = placeOf? byte bytes (before ++ skipped).length := by
  induction skipped generalizing before with
  | nil => rw [List.append_nil]
  | cons first skipped inductionHypothesis =>
      rw [List.mem_cons, not_or] at others
      rw [placeOf?_of_cons parts, if_neg (Ne.symm others.1)]
      have further : bytes.data.toList = (before ++ [first]) ++ (skipped ++ behind) := by
        rw [parts, List.append_assoc]
        rfl
      have skips := inductionHypothesis further others.2
      rwa [List.length_append, List.append_assoc] at skips

end Jumps

/-- The place of a character of ASCII is behind all characters up to the first such one. -/
theorem Stands.placeOf?_some (stands : lexer.Stands front (between ++ c :: back)) (ascii : c.toNat < 128)
    (others : c ∉ between) :
    placeOf? c.toUInt8 lexer.bytes lexer.position = some (byteLength (front ++ between)) := by
  have parts := stands.toList_bytes
  rw [encoded_append, encoded_cons, encode_of_ascii ascii] at parts
  have skips := placeOf?_skip parts (mt (toUInt8_mem_encoded ascii between).mp others)
  rw [← List.append_assoc] at parts
  rw [stands.position, byteLength, skips, placeOf?_of_cons parts, if_pos rfl, byteLength, encoded_append]

theorem Stands.placeOf?_none (stands : lexer.Stands front back) (ascii : c.toNat < 128) (others : c ∉ back) :
    placeOf? c.toUInt8 lexer.bytes lexer.position = none := by
  have parts : lexer.bytes.data.toList = encoded front ++ (encoded back ++ []) := by
    rw [List.append_nil]
    exact stands.toList_bytes
  have skips := placeOf?_skip parts (mt (toUInt8_mem_encoded ascii back).mp others)
  rw [stands.position, byteLength, skips, ← stands.toList_bytes, Array.length_toList]
  exact placeOf?_size _ _

end Lexer

end ScopedScript
