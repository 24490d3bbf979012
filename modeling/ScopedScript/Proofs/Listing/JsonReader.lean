import ScopedScript.Proofs.Listing.JsonTexts
namespace ScopedScript

/-!
# Reading objects

A reader for the objects of the grammar.  Each function reads from the beginning of a text and leaves the
rest.  Whatever the grammar derives is read as what it stands for.
-/

namespace Json

/-! ## The reader -/

/-- Read the characters of a string up to its closing quote. -/
def readString : List Char → Option (List Char × List Char)
  | [] => none
  | '"' :: rest => some ([], rest)
  | '\\' :: 'u' :: a :: b :: c :: d :: rest => do
    let character ← numbered? a b c d
    let (others, behind) ← readString rest
    some (character :: others, behind)
  | '\\' :: letter :: rest => do
    let character ← shortEscape? letter
    let (others, behind) ← readString rest
    some (character :: others, behind)
  | c :: rest =>
    if c.toNat < 0x20 then none
    else do
      let (others, behind) ← readString rest
      some (c :: others, behind)

/-- Read a row of digits, which may be empty. -/
def readRow (text : List Char) : List Char × List Char :=
  (text.takeWhile Char.isDigit, text.dropWhile Char.isDigit)

/-- Read the digits of a fraction, if there is one. -/
def readFraction : List Char → List Char × List Char
  | '.' :: rest => readRow rest
  | text => ([], text)

/-- Read the digits of a power behind its sign. -/
def readSignedPower : List Char → ℤ × List Char
  | '-' :: rest => (-rowValue (readRow rest).1, (readRow rest).2)
  | '+' :: rest => (rowValue (readRow rest).1, (readRow rest).2)
  | text => (rowValue (readRow text).1, (readRow text).2)

/-- Read a power of ten, if there is one. -/
def readPower : List Char → ℤ × List Char
  | mark :: rest => if mark = 'e' ∨ mark = 'E' then readSignedPower rest else (0, mark :: rest)
  | [] => (0, [])

/-- Read a number without its sign. -/
def readMagnitude (text : List Char) : Option (Decimal × List Char) :=
  let (whole, behind) := readRow text
  let (digits, behind) := readFraction behind
  let (power, behind) := readPower behind
  if whole.isEmpty then none else some (⟨rowValue (whole ++ digits), power - digits.length⟩, behind)

/-- Read a scalar. -/
def readScalar : List Char → Option (Scalar × List Char)
  | '"' :: rest => (readString rest).map fun (characters, behind) => (.text characters, behind)
  | 'n' :: 'u' :: 'l' :: 'l' :: rest => some (.null, rest)
  | '-' :: rest => (readMagnitude rest).map fun (magnitude, behind) => (.number true magnitude, behind)
  | text => (readMagnitude text).map fun (magnitude, behind) => (.number false magnitude, behind)

/-- Read a member. -/
def readMember : List Char → Option (Member × List Char)
  | '"' :: rest => do
    match ← readString rest with
    | (name, ':' :: behind) =>
      let (scalar, behind) ← readScalar behind
      some ((String.ofList name, scalar), behind)
    | _ => none
  | _ => none

/-- Read members up to the brace that ends the text, at most so many. -/
def readMembers : Nat → List Char → Option (List Member)
  | 0, _ => none
  | room + 1, text => do
    match ← readMember text with
    | (member, ['}']) => some [member]
    | (member, ',' :: behind) =>
      let others ← readMembers room behind
      some (member :: others)
    | _ => none

/-- Read an object.  It has no more members than characters. -/
def readObject : List Char → Option (List Member)
  | '{' :: rest => readMembers rest.length rest
  | _ => none

/-! ## Strings are read as their characters -/

section Strings

variable {characters text rest : List Char}

theorem readString_contents (contents : IsContents characters text) (rest : List Char) :
    readString (text ++ '"' :: rest) = some (characters, rest) := by
  induction contents with
  | done => rfl
  | @next c cs front text written others inductionHypothesis =>
      rw [List.append_assoc]
      cases written with
      | plain visible noQuote noBackslash =>
          rw [List.singleton_append, readString]
          · rw [if_neg (Nat.not_lt.mpr visible), inductionHypothesis]
            rfl
          · exact noQuote
          · rintro a b c d rest rfl
            exact absurd rfl noBackslash
          · rintro letter rest rfl
            exact absurd rfl noBackslash
      | short escaped =>
          rw [List.cons_append, List.singleton_append, readString]
          · rw [escaped, inductionHypothesis]
            rfl
          · rintro a b c d rest rfl
            cases escaped
      | numbered code =>
          change readString ('\\' :: 'u' :: _ :: _ :: _ :: _ :: (text ++ '"' :: rest)) = _
          rw [readString, code, inductionHypothesis]
          rfl

end Strings

/-! ## Numbers are read as what they stand for -/

/-- What may stand behind a scalar. -/
def Ends (text : List Char) : Prop := ∀ c ∈ text.head?, c = ',' ∨ c = '}'

section Numbers

variable {row text rest : List Char}

/-- A row of digits is read up to the first other character. -/
theorem readRow_append (digits : ∀ c ∈ row, c.isDigit) (stops : ∀ c ∈ rest.head?, c.isDigit = false) :
    readRow (row ++ rest) = (row, rest) := by
  have nothing : rest.takeWhile Char.isDigit = [] ∧ rest.dropWhile Char.isDigit = rest := by
    cases rest with
    | nil => exact ⟨rfl, rfl⟩
    | cons c rest =>
        have stop := stops c rfl
        rw [List.takeWhile_cons, List.dropWhile_cons, stop]
        exact ⟨rfl, rfl⟩
  rw [readRow, List.takeWhile_append_of_pos digits, List.dropWhile_append_of_pos digits, nothing.1, nothing.2,
    List.append_nil]

theorem Ends.stops (ends : Ends rest) : ∀ c ∈ rest.head?, c.isDigit = false := by
  intro c head
  rcases ends c head with rfl | rfl
  · rfl
  · rfl

theorem readPower_append {power : ℤ} (isPower : IsPower power text) (ends : Ends rest) :
    readPower (text ++ rest) = (power, rest) := by
  cases isPower with
  | none =>
      cases rest with
      | nil => rfl
      | cons c rest =>
          rcases ends c rfl with rfl | rfl
          · rfl
          · rfl
  | @power mark negative sign row isMark isSign written digits =>
      have all := readRow_append digits ends.stops
      rw [List.cons_append, List.append_assoc, readPower, if_pos isMark]
      cases isSign with
      | none =>
          obtain ⟨first, others, rfl⟩ := List.exists_cons_of_ne_nil written
          rw [List.nil_append, List.cons_append, readSignedPower]
          · rw [← List.cons_append, all]
            rfl
          · rintro behind ⟨⟩
            exact absurd (digits '-' List.mem_cons_self) (by decide)
          · rintro behind ⟨⟩
            exact absurd (digits '+' List.mem_cons_self) (by decide)
      | plus =>
          rw [List.singleton_append, readSignedPower, all]
          rfl
      | minus =>
          rw [List.singleton_append, readSignedPower, all]
          rfl

/-- A power does not begin with a digit or a point. -/
theorem head_power {power : ℤ} {c : Char} (isPower : IsPower power text) (ends : Ends rest)
    (head : c ∈ (text ++ rest).head?) : c.isDigit = false ∧ c ≠ '.' := by
  cases isPower with
  | none =>
      rcases ends c head with rfl | rfl
      · decide
      · decide
  | power isMark =>
      cases head
      rcases isMark with rfl | rfl
      · decide
      · decide

theorem readFraction_append {power : ℤ} {exponent : List Char} (isFraction : IsFraction row text)
    (isPower : IsPower power exponent) (ends : Ends rest) :
    readFraction (text ++ (exponent ++ rest)) = (row, exponent ++ rest) := by
  have head := fun c => @head_power exponent rest power c isPower ends
  generalize exponent ++ rest = behind at head ⊢
  cases isFraction with
  | none =>
      cases behind with
      | nil => rfl
      | cons c behind =>
          rw [List.nil_append, readFraction]
          rintro rest ⟨⟩
          exact (head '.' rfl).2 rfl
  | digits written digits =>
      rw [List.cons_append, readFraction]
      exact readRow_append digits fun c isHead => (head c isHead).1

/-- A fraction and a power do not begin with a digit. -/
theorem head_fraction {power : ℤ} {exponent : List Char} {c : Char} (isFraction : IsFraction row text)
    (isPower : IsPower power exponent) (ends : Ends rest) (head : c ∈ (text ++ (exponent ++ rest)).head?) :
    c.isDigit = false := by
  cases isFraction with
  | none => exact (head_power isPower ends head).1
  | digits =>
      cases head
      rfl

theorem readMagnitude_append {whole digits fraction exponent : List Char} {power : ℤ} (trimmed : IsTrimmed whole)
    (isFraction : IsFraction digits fraction) (isPower : IsPower power exponent) (ends : Ends rest) :
    readMagnitude (whole ++ (fraction ++ exponent) ++ rest) =
      some (⟨rowValue (whole ++ digits), power - digits.length⟩, rest) := by
  have first := readRow_append trimmed.isDigit fun c => @head_fraction digits fraction rest power exponent c
    isFraction isPower ends
  have written : whole.isEmpty = false := by
    rw [List.isEmpty_eq_false_iff]
    exact trimmed.ne_nil
  rw [List.append_assoc, List.append_assoc, readMagnitude, first]
  dsimp only
  rw [readFraction_append isFraction isPower ends]
  dsimp only
  rw [readPower_append isPower ends, written]
  rfl

end Numbers

/-! ## Objects are read as their members -/

section Objects

variable {text rest : List Char}

theorem readScalar_append {scalar : Scalar} (isScalar : IsScalar scalar text) (ends : Ends rest) :
    readScalar (text ++ rest) = some (scalar, rest) := by
  cases isScalar with
  | null => rfl
  | text isString =>
      cases isString with
      | quoted contents =>
          rw [List.cons_append, List.append_assoc, readScalar, List.singleton_append,
            readString_contents contents]
          rfl
  | @number negative magnitude text isNumber =>
      cases isNumber with
      | number negative trimmed isFraction isPower =>
          have read := readMagnitude_append trimmed isFraction isPower ends
          cases negative with
          | true =>
              rw [NumberFormat.signed, if_pos rfl, List.cons_append, readScalar, read]
              rfl
          | false =>
              have digits := trimmed.isDigit
              obtain ⟨first, others, rfl⟩ := List.exists_cons_of_ne_nil trimmed.ne_nil
              have isDigit := digits first List.mem_cons_self
              rw [NumberFormat.signed, if_neg Bool.false_ne_true]
              simp only [List.cons_append] at read ⊢
              rw [readScalar, read]
              · rfl
              · rintro behind ⟨⟩
                exact absurd isDigit (by decide)
              · intro behind isNull
                obtain ⟨rfl, -⟩ := List.cons.inj isNull
                exact absurd isDigit (by decide)
              · rintro behind ⟨⟩
                exact absurd isDigit (by decide)

theorem readMember_append {member : Member} (isMember : IsMember member text) (ends : Ends rest) :
    readMember (text ++ rest) = some (member, rest) := by
  cases isMember with
  | @member name scalar key value isString isScalar =>
      generalize characters : name.toList = cs at isString
      cases isString with
      | quoted contents =>
          have named : String.ofList cs = name := by rw [← characters, String.ofList_toList]
          have read := readString_contents contents (':' :: (value ++ rest))
          rw [List.cons_append, List.cons_append, List.append_assoc, List.append_assoc, readMember]
          change (readString (_ ++ '"' :: ':' :: (value ++ rest)) >>= fun _ => _) = _
          rw [read]
          change (readScalar (value ++ rest) >>= fun _ => _) = _
          rw [readScalar_append isScalar ends, ← named]
          rfl

theorem IsMembers.length_le {members : List Member} (areMembers : IsMembers members text) :
    members.length ≤ text.length := by
  induction areMembers with
  | last isMember =>
      cases isMember
      rw [List.length_singleton, List.length_append, List.length_cons]
      omega
  | next isMember areMembers inductionHypothesis =>
      rw [List.length_cons, List.length_append, List.length_cons]
      omega

theorem readMembers_append {members : List Member} (areMembers : IsMembers members text) {room : Nat}
    (fits : members.length ≤ room) : readMembers room (text ++ ['}']) = some members := by
  induction areMembers generalizing room with
  | last isMember =>
      obtain ⟨less, rfl⟩ := Nat.exists_eq_add_of_le' fits
      have ends : Ends ['}'] := fun c head => .inr (Option.some.inj head).symm
      rw [List.length_singleton, readMembers, readMember_append isMember ends]
      rfl
  | @next member members text others isMember areMembers inductionHypothesis =>
      obtain ⟨less, rfl⟩ := Nat.exists_eq_add_of_le' fits
      have ends : Ends (',' :: (others ++ ['}'])) := fun c head => .inl (Option.some.inj head).symm
      have behind := @inductionHypothesis (less + members.length) (Nat.le_add_left _ _)
      rw [List.length_cons, ← Nat.add_assoc, readMembers, List.append_assoc, List.cons_append,
        readMember_append isMember ends]
      change (readMembers (less + members.length) (others ++ ['}']) >>= fun _ => _) = _
      rw [behind]
      rfl

/-- What the grammar derives as an object is read as its members. -/
theorem readObject_eq {members : List Member} (isObject : IsObject members text) :
    readObject text = some members := by
  cases isObject with
  | object areMembers =>
      rw [readObject]
      refine readMembers_append areMembers ?_
      rw [List.length_append]
      exact areMembers.length_le.trans (Nat.le_add_right _ _)

end Objects

end Json

end ScopedScript
