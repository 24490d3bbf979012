import ScopedScript.Number.Format
import ScopedScript.Proofs.Number.Digits
namespace ScopedScript

/-!
# Objects in JSON

The part of JSON that listings are written in: one object without insignificant blanks, and each of its
members is null, a number or a string.  The grammar is that of RFC 8259, and it says what each text stands
for.  A number stands for a decimal with a sign, so nothing is lost, however many digits it has.
-/

namespace Json

/-- What a member of an object is. -/
inductive Scalar where
  | null
  | number (negative : Bool) (magnitude : Decimal)
  | text (characters : List Char)
  deriving DecidableEq

/-- A member of an object has a name. -/
abbrev Member := String × Scalar

/-! ## Strings -/

/-- The characters that have an escape of one letter. -/
def shortEscape? : Char → Option Char
  | '"' => some '"'
  | '\\' => some '\\'
  | '/' => some '/'
  | 'b' => some '\x08'
  | 'f' => some '\x0c'
  | 'n' => some '\n'
  | 'r' => some '\r'
  | 't' => some '\t'
  | _ => none

/-- The value of a hexadecimal digit. -/
def hexValue? (c : Char) : Option Nat :=
  if c.isDigit then some (c.toNat - '0'.toNat)
  else if 'a' ≤ c ∧ c ≤ 'f' then some (10 + (c.toNat - 'a'.toNat))
  else if 'A' ≤ c ∧ c ≤ 'F' then some (10 + (c.toNat - 'A'.toNat))
  else none

/-- The character with the given number in four hexadecimal digits.  A half of a surrogate pair is none. -/
def numbered? (a b c d : Char) : Option Char := do
  let number := 4096 * (← hexValue? a) + 256 * (← hexValue? b) + 16 * (← hexValue? c) + (← hexValue? d)
  if number.isValidChar then some (Char.ofNat number) else none

/-- What one character of a string may be written as. -/
inductive IsWritten : Char → List Char → Prop where
  | plain {c : Char} (visible : 0x20 ≤ c.toNat) (noQuote : c ≠ '"') (noBackslash : c ≠ '\\') : IsWritten c [c]
  | short {c letter : Char} (escaped : shortEscape? letter = some c) : IsWritten c ['\\', letter]
  | numbered {character a b c d : Char} (code : numbered? a b c d = some character) :
      IsWritten character ['\\', 'u', a, b, c, d]

/-- What the characters of a string may be written as. -/
inductive IsContents : List Char → List Char → Prop where
  | done : IsContents [] []
  | next {c : Char} {cs front text : List Char} (written : IsWritten c front) (others : IsContents cs text) :
      IsContents (c :: cs) (front ++ text)

/-- The text of a string. -/
inductive IsString : List Char → List Char → Prop where
  | quoted {characters text : List Char} (contents : IsContents characters text) :
      IsString characters ('"' :: (text ++ ['"']))

/-! ## Numbers -/

/-- The digits of a fraction and the text of it, which is empty without digits. -/
inductive IsFraction : List Char → List Char → Prop where
  | none : IsFraction [] []
  | digits {row : List Char} (written : row ≠ []) (digits : ∀ c ∈ row, c.isDigit) : IsFraction row ('.' :: row)

/-- The sign of a power, which may be left out when it is a plus. -/
inductive IsPowerSign : Bool → List Char → Prop where
  | none : IsPowerSign false []
  | plus : IsPowerSign false ['+']
  | minus : IsPowerSign true ['-']

/-- A power of ten and the text of it, which may be left out when it is zero. -/
inductive IsPower : ℤ → List Char → Prop where
  | none : IsPower 0 []
  | power {mark : Char} {negative : Bool} {sign row : List Char} (isMark : mark = 'e' ∨ mark = 'E')
      (isSign : IsPowerSign negative sign) (written : row ≠ []) (digits : ∀ c ∈ row, c.isDigit) :
      IsPower (if negative then -rowValue row else rowValue row) (mark :: (sign ++ row))

/-- The text of a number. -/
inductive IsNumber : Bool → Decimal → List Char → Prop where
  | number {whole digits fraction exponent : List Char} {power : ℤ} (negative : Bool) (trimmed : IsTrimmed whole)
      (isFraction : IsFraction digits fraction) (isPower : IsPower power exponent) :
      IsNumber negative ⟨rowValue (whole ++ digits), power - digits.length⟩
        (NumberFormat.signed negative (whole ++ (fraction ++ exponent)))

/-! ## Objects -/

/-- The text of a scalar. -/
inductive IsScalar : Scalar → List Char → Prop where
  | null : IsScalar .null ['n', 'u', 'l', 'l']
  | number {negative : Bool} {magnitude : Decimal} {text : List Char}
      (isNumber : IsNumber negative magnitude text) : IsScalar (.number negative magnitude) text
  | text {characters text : List Char} (isString : IsString characters text) : IsScalar (.text characters) text

/-- The text of a member. -/
inductive IsMember : Member → List Char → Prop where
  | member {name : String} {scalar : Scalar} {key value : List Char} (isString : IsString name.toList key)
      (isScalar : IsScalar scalar value) : IsMember (name, scalar) (key ++ ':' :: value)

/-- The text of one member or more. -/
inductive IsMembers : List Member → List Char → Prop where
  | last {member : Member} {text : List Char} (isMember : IsMember member text) : IsMembers [member] text
  | next {member : Member} {members : List Member} {text others : List Char} (isMember : IsMember member text)
      (areMembers : IsMembers members others) : IsMembers (member :: members) (text ++ ',' :: others)

/-- The text of an object. -/
inductive IsObject : List Member → List Char → Prop where
  | object {members : List Member} {text : List Char} (areMembers : IsMembers members text) :
      IsObject members ('{' :: (text ++ ['}']))

/-! ## No control characters -/

/-- A text without control characters. -/
def IsVisible (text : List Char) : Prop := ∀ c ∈ text, 0x20 ≤ c.toNat

variable {c : Char} {row text more : List Char}

theorem isVisible_nil : IsVisible [] := List.forall_mem_nil _

theorem isVisible_cons : IsVisible (c :: text) ↔ 0x20 ≤ c.toNat ∧ IsVisible text := List.forall_mem_cons

theorem isVisible_singleton : IsVisible [c] ↔ 0x20 ≤ c.toNat := List.forall_mem_singleton

theorem isVisible_append : IsVisible (text ++ more) ↔ IsVisible text ∧ IsVisible more := List.forall_mem_append

theorem visible_of_isDigit (isDigit : c.isDigit) : 0x20 ≤ c.toNat := by
  simp only [Char.isDigit, Bool.and_eq_true, decide_eq_true_eq, UInt32.le_iff_toNat_le, ge_iff_le] at isDigit
  exact le_trans (by decide) isDigit.1

theorem isVisible_row (digits : ∀ c ∈ row, c.isDigit) : IsVisible row :=
  fun c member => visible_of_isDigit (digits c member)

theorem visible_of_hexValue? {value : Nat} (isDigit : hexValue? c = some value) : 0x20 ≤ c.toNat := by
  unfold hexValue? at isDigit
  split_ifs at isDigit with digit lower upper
  · exact visible_of_isDigit digit
  · exact le_trans (by decide) (Char.le_def.mp lower.1)
  · exact le_trans (by decide) (Char.le_def.mp upper.1)

theorem visible_of_shortEscape? {letter : Char} (escaped : shortEscape? letter = some c) :
    0x20 ≤ letter.toNat := by
  unfold shortEscape? at escaped
  split at escaped
  all_goals first
    | decide
    | cases escaped

theorem IsWritten.isVisible (written : IsWritten c text) : IsVisible text := by
  cases written with
  | plain visible => exact isVisible_singleton.mpr visible
  | short escaped =>
      exact isVisible_cons.mpr ⟨by decide, isVisible_singleton.mpr (visible_of_shortEscape? escaped)⟩
  | numbered code =>
      simp only [numbered?, Option.bind_eq_bind, Option.bind_eq_some_iff] at code
      obtain ⟨_, first, _, second, _, third, _, fourth, -⟩ := code
      simp only [isVisible_cons]
      exact ⟨by decide, by decide, visible_of_hexValue? first, visible_of_hexValue? second,
        visible_of_hexValue? third, visible_of_hexValue? fourth, isVisible_nil⟩

theorem IsString.isVisible {characters : List Char} (isString : IsString characters text) : IsVisible text := by
  cases isString with
  | quoted contents =>
      refine isVisible_cons.mpr ⟨by decide, isVisible_append.mpr ⟨?_, isVisible_singleton.mpr (by decide)⟩⟩
      induction contents with
      | done => exact isVisible_nil
      | next written _ inductionHypothesis => exact isVisible_append.mpr ⟨written.isVisible, inductionHypothesis⟩

theorem IsNumber.isVisible {negative : Bool} {magnitude : Decimal} (isNumber : IsNumber negative magnitude text) :
    IsVisible text := by
  cases isNumber with
  | @number whole digits fraction exponent power negative trimmed isFraction isPower =>
      have first : IsVisible whole := isVisible_row trimmed.isDigit
      have second : IsVisible fraction := by
        cases isFraction with
        | none => exact isVisible_nil
        | digits _ digits => exact isVisible_cons.mpr ⟨by decide, isVisible_row digits⟩
      have third : IsVisible exponent := by
        cases isPower with
        | none => exact isVisible_nil
        | power isMark isSign _ digits =>
            refine isVisible_cons.mpr ⟨?_, isVisible_append.mpr ⟨?_, isVisible_row digits⟩⟩
            · rcases isMark with rfl | rfl <;> decide
            · cases isSign with
              | none => exact isVisible_nil
              | plus => exact isVisible_singleton.mpr (by decide)
              | minus => exact isVisible_singleton.mpr (by decide)
      have all := isVisible_append.mpr ⟨first, isVisible_append.mpr ⟨second, third⟩⟩
      cases negative with
      | false => exact all
      | true => exact isVisible_cons.mpr ⟨by decide, all⟩

theorem IsMember.isVisible {member : Member} (isMember : IsMember member text) : IsVisible text := by
  cases isMember with
  | member isString isScalar =>
      refine isVisible_append.mpr ⟨isString.isVisible, isVisible_cons.mpr ⟨by decide, ?_⟩⟩
      cases isScalar with
      | null =>
          simp only [isVisible_cons]
          exact ⟨by decide, by decide, by decide, by decide, isVisible_nil⟩
      | number isNumber => exact isNumber.isVisible
      | text isString => exact isString.isVisible

/-- The text of an object holds no control character. -/
theorem IsObject.isVisible {members : List Member} (isObject : IsObject members text) : IsVisible text := by
  cases isObject with
  | object areMembers =>
      refine isVisible_cons.mpr ⟨by decide, isVisible_append.mpr ⟨?_, isVisible_singleton.mpr (by decide)⟩⟩
      induction areMembers with
      | last isMember => exact isMember.isVisible
      | next isMember _ inductionHypothesis =>
          exact isVisible_append.mpr ⟨isMember.isVisible, isVisible_cons.mpr ⟨by decide, inductionHypothesis⟩⟩

end Json

end ScopedScript
