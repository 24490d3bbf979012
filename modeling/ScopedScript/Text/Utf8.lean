namespace ScopedScript

/-!
# Text from bytes

UTF-8 text is decoded one character at a time.  Where no character can be read, the fault says whether the
bytes end inside a character or how many of them form the longest beginning of one.
-/

namespace Utf8

/-- What is wrong with bytes at some place. -/
inductive Fault where
  /-- The bytes end inside a character. -/
  | incomplete
  /-- The next bytes begin no character; so many of them are to blame. -/
  | invalid (length : Nat)
  deriving DecidableEq, Repr

/-- A fault and how many bytes of good text stand before it. -/
structure Error where
  fault : Fault
  index : Nat
  deriving DecidableEq, Repr

namespace Error

/-- The wording of an error. -/
def message (error : Error) : String :=
  match error.fault with
  | .incomplete => "incomplete utf-8 byte sequence from index " ++ toString error.index
  | .invalid length =>
    "invalid utf-8 sequence of " ++ toString length ++ " bytes from index " ++ toString error.index

end Error

/-- What follows the first byte of a character: the payload of that byte, the range of the second
byte, and how many further bytes there are. -/
structure Lead where
  payload : Nat
  low : Nat
  high : Nat
  further : Nat

/-- The first byte of a character of two bytes or more.  The ranges leave out overlong forms, surrogates
and numbers above the last code point. -/
def lead? (byte : Nat) : Option Lead :=
  if byte < 0xC2 then none
  else if byte ≤ 0xDF then some ⟨byte - 0xC0, 0x80, 0xBF, 0⟩
  else if byte = 0xE0 then some ⟨0x0, 0xA0, 0xBF, 1⟩
  else if byte = 0xED then some ⟨0xD, 0x80, 0x9F, 1⟩
  else if byte ≤ 0xEF then some ⟨byte - 0xE0, 0x80, 0xBF, 1⟩
  else if byte = 0xF0 then some ⟨0x0, 0x90, 0xBF, 2⟩
  else if byte ≤ 0xF3 then some ⟨byte - 0xF0, 0x80, 0xBF, 2⟩
  else if byte = 0xF4 then some ⟨0x4, 0x80, 0x8F, 2⟩
  else none

/-- Read so many continuation bytes, behind `taken` bytes of the character with the given value. -/
def continuation (taken value : Nat) : Nat → List UInt8 → Except Fault (Nat × Nat)
  | 0, _ => .ok (value, taken)
  | _ + 1, [] => .error .incomplete
  | further + 1, byte :: rest =>
    if 0x80 ≤ byte.toNat ∧ byte.toNat ≤ 0xBF then
      continuation (taken + 1) (value * 64 + (byte.toNat - 0x80)) further rest
    else .error (.invalid taken)

/-- The code point at the beginning of bytes, and how many bytes it takes. -/
def first (byte : UInt8) (rest : List UInt8) : Except Fault (Nat × Nat) :=
  if byte.toNat < 0x80 then .ok (byte.toNat, 1)
  else
    match lead? byte.toNat with
    | none => .error (.invalid 1)
    | some lead =>
      match rest with
      | [] => .error .incomplete
      | second :: others =>
        if lead.low ≤ second.toNat ∧ second.toNat ≤ lead.high then
          continuation 2 (lead.payload * 64 + (second.toNat - 0x80)) lead.further others
        else .error (.invalid 1)

/-- Decode bytes from the given index on, behind the characters already decoded in reverse. -/
def decodeFrom (index : Nat) (done : List Char) : List UInt8 → Except Error (List Char)
  | [] => .ok done.reverse
  | byte :: rest =>
    match first byte rest with
    | .ok (code, width) =>
      decodeFrom (index + width) (Char.ofNat code :: done) (rest.drop (width - 1))
    | .error fault => .error ⟨fault, index⟩
termination_by bytes => bytes.length
decreasing_by simp only [List.length_cons, List.length_drop]; omega

/-- The text that bytes encode. -/
def decode (bytes : List UInt8) : Except Error String :=
  match decodeFrom 0 [] bytes with
  | .ok characters => .ok (String.ofList characters)
  | .error error => .error error

end Utf8

end ScopedScript
