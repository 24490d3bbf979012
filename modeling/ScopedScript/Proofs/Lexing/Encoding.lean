import Mathlib.Data.List.Basic
import Mathlib.Tactic.SplitIfs
import ScopedScript.Token.Lexer
namespace ScopedScript

/-!
# Characters as bytes

In UTF-8 a character of ASCII is its own single byte, and all bytes of any other one lie beyond ASCII.  So a byte
of ASCII tells the character it is found in.
-/

/-- The bytes of characters. -/
def encoded (text : List Char) : List UInt8 := text.flatMap String.utf8EncodeChar

@[simp] theorem encoded_nil : encoded [] = [] := rfl

theorem encoded_append (text more : List Char) : encoded (text ++ more) = encoded text ++ encoded more :=
  List.flatMap_append

theorem encoded_cons (c : Char) (text : List Char) : encoded (c :: text) = String.utf8EncodeChar c ++ encoded text :=
  List.flatMap_cons

theorem toList_toUTF8 (text : String) : text.toUTF8.data.toList = encoded text.toList := by
  rw [String.toUTF8, ← String.ofList_toList (s := text), String.toByteArray_ofList, List.utf8Encode,
    List.data_toByteArray, List.toList_toArray, String.toList_ofList]
  rfl

/-- How many bytes characters have. -/
def byteLength (text : List Char) : Nat := (encoded text).length

theorem byteLength_append (text more : List Char) : byteLength (text ++ more) = byteLength text + byteLength more := by
  rw [byteLength, encoded_append, List.length_append]
  rfl

theorem byteLength_cons_pos (c : Char) (text : List Char) : 0 < byteLength (c :: text) := by
  rw [byteLength, encoded_cons, List.length_append]
  exact Nat.add_pos_left (List.length_pos_iff.mpr String.utf8EncodeChar_ne_nil) _

theorem byteLength_singleton (c : Char) : byteLength [c] = c.utf8Size := by
  rw [byteLength, encoded_cons, encoded_nil, List.append_nil, String.length_utf8EncodeChar]

theorem utf8ByteSize_ofList (text : List Char) : (String.ofList text).utf8ByteSize = byteLength text := by
  have bytes := toList_toUTF8 (String.ofList text)
  rw [String.toList_ofList] at bytes
  rw [byteLength, ← bytes]
  rfl

/-! ## ASCII -/

theorem utf8Size_of_ascii {c : Char} (ascii : c.toNat < 128) : c.utf8Size = 1 := by
  rw [Char.utf8Size_eq_one_iff, UInt32.le_iff_toNat_le]
  exact Nat.le_of_lt_succ ascii

theorem encode_of_ascii {c : Char} (ascii : c.toNat < 128) : String.utf8EncodeChar c = [c.toUInt8] :=
  String.utf8EncodeChar_eq_singleton (utf8Size_of_ascii ascii)

/-- What holds of ASCII only does not hold beyond it. -/
theorem not_of_beyond {p : Char → Bool} {c : Char} (ascii : ∀ c, p c = true → c.toNat < 128)
    (beyond : 128 ≤ c.toNat) : ¬p c = true := fun holds => Nat.not_lt.mpr beyond (ascii c holds)

theorem toNat_toUInt8 {c : Char} (ascii : c.toNat < 128) : c.toUInt8.toNat = c.toNat := by
  change c.val.toNat % 256 = c.val.toNat
  exact Nat.mod_eq_of_lt (Nat.lt_trans ascii (by decide))

theorem le_of_mem_encode {c : Char} (beyond : 128 ≤ c.toNat) {byte : UInt8}
    (member : byte ∈ String.utf8EncodeChar c) : 128 ≤ byte.toNat := by
  have range : c.val.toNat < 0x110000 := by
    rcases c.valid with low | high
    · omega
    · omega
  change 128 ≤ c.val.toNat at beyond
  unfold String.utf8EncodeChar at member
  dsimp only at member
  split_ifs at member
  all_goals
    simp only [List.mem_cons, List.not_mem_nil, or_false, ← UInt8.toNat_inj, UInt8.toNat_ofNat'] at member
    omega

/-- A byte that a character begins with: the character itself, when it is of ASCII. -/
def Leading (byte : UInt8) (c : Char) : Prop :=
  Char.ofUInt8 byte = c ∧ c.toNat < 128 ∨ 128 ≤ (Char.ofUInt8 byte).toNat ∧ 128 ≤ c.toNat

theorem ofUInt8_toUInt8 {c : Char} (ascii : c.toNat < 128) : Char.ofUInt8 c.toUInt8 = c :=
  Char.ext (UInt32.toNat_inj.mp (toNat_toUInt8 ascii))

theorem exists_leading (c : Char) : ∃ byte more, String.utf8EncodeChar c = byte :: more ∧ Leading byte c := by
  by_cases ascii : c.toNat < 128
  · exact ⟨c.toUInt8, [], encode_of_ascii ascii, .inl ⟨ofUInt8_toUInt8 ascii, ascii⟩⟩
  · have beyond := Nat.le_of_not_lt ascii
    rcases List.exists_cons_of_ne_nil (String.utf8EncodeChar_ne_nil (c := c)) with ⟨byte, more, parts⟩
    have first : byte ∈ String.utf8EncodeChar c := parts ▸ List.mem_cons_self
    exact ⟨byte, more, parts, .inr ⟨le_of_mem_encode beyond first, beyond⟩⟩

/-- A byte of ASCII is found in no character but its own. -/
theorem toUInt8_mem_encode {c d : Char} (ascii : d.toNat < 128) : d.toUInt8 ∈ String.utf8EncodeChar c ↔ c = d := by
  constructor
  · intro member
    by_cases asciiToo : c.toNat < 128
    · rw [encode_of_ascii asciiToo, List.mem_singleton] at member
      rw [← ofUInt8_toUInt8 asciiToo, ← member, ofUInt8_toUInt8 ascii]
    · have beyond := le_of_mem_encode (Nat.le_of_not_lt asciiToo) member
      rw [toNat_toUInt8 ascii] at beyond
      exact absurd ascii (Nat.not_lt.mpr beyond)
  · rintro rfl
    rw [encode_of_ascii ascii]
    exact List.mem_singleton_self _

theorem toUInt8_mem_encoded {d : Char} (ascii : d.toNat < 128) (text : List Char) :
    d.toUInt8 ∈ encoded text ↔ d ∈ text := by
  rw [encoded, List.mem_flatMap]
  constructor
  · rintro ⟨c, member, found⟩
    exact (toUInt8_mem_encode ascii).mp found ▸ member
  · exact fun member => ⟨d, member, (toUInt8_mem_encode ascii).mpr rfl⟩

/-- A character of ASCII is counted by its byte. -/
theorem count_encoded {d : Char} (ascii : d.toNat < 128) (text : List Char) :
    (encoded text).count d.toUInt8 = text.count d := by
  induction text with
  | nil => rfl
  | cons c text inductionHypothesis =>
      rw [encoded_cons, List.count_append, inductionHypothesis, List.count_cons, Nat.add_comm]
      congr 1
      by_cases same : c = d
      · subst same
        rw [encode_of_ascii ascii, List.count_singleton_self, beq_self_eq_true, if_pos rfl]
      · rw [List.count_eq_zero.mpr (mt (toUInt8_mem_encode ascii).mp same), if_neg (by simpa using same)]

theorem Leading.eq_iff {byte : UInt8} {c d : Char} (leading : Leading byte c) (ascii : d.toNat < 128) :
    Char.ofUInt8 byte = d ↔ c = d := by
  rcases leading with ⟨rfl, -⟩ | ⟨beyond, beyondToo⟩
  · rfl
  · constructor
    · rintro rfl
      exact absurd ascii (Nat.not_lt.mpr beyond)
    · rintro rfl
      exact absurd ascii (Nat.not_lt.mpr beyondToo)

theorem Leading.byte_eq_iff {byte : UInt8} {c d : Char} (leading : Leading byte c) (ascii : d.toNat < 128) :
    byte = d.toUInt8 ↔ c = d := by
  rw [← leading.eq_iff ascii]
  constructor
  · rintro rfl
    exact ofUInt8_toUInt8 ascii
  · rintro rfl
    exact UInt8.toNat_inj.mp (toNat_toUInt8 ascii).symm

/-- A test that only characters of ASCII pass holds of a byte as of the character that begins with it. -/
theorem Leading.test_eq {byte : UInt8} {c : Char} (leading : Leading byte c) {p : Char → Bool}
    (ascii : ∀ c, p c = true → c.toNat < 128) : p (Char.ofUInt8 byte) = p c := by
  rcases leading with ⟨rfl, -⟩ | ⟨beyond, beyondToo⟩
  · rfl
  · rw [Bool.eq_false_iff.mpr (not_of_beyond ascii beyond), Bool.eq_false_iff.mpr (not_of_beyond ascii beyondToo)]

end ScopedScript
