import ScopedScript.Proofs.Listing.JsonReader
import ScopedScript.Proofs.Number.Signs
import ScopedScript.Token.Listing
namespace ScopedScript

/-!
# Rows of a listing from their JSON

The decoder reads an object and looks its members up by their names.  It finds the label, the lexeme, the
literal and the line of a row, and from these the token or the end of the text that the row shows.  Of the writer
nothing is known but that it writes JSON, which is to say an object whose members stand for the fields.  A literal
beyond all doubles is written null then, and null is read as infinity again.
-/

namespace Json

/-! ## The decoder -/

namespace Scalar

/-- The literal that a scalar stands for. -/
def literal : Scalar → TokenLiteral
  | null => .number Binary64.infinity
  | number negative magnitude => .number (if negative then -magnitude.toFloat else magnitude.toFloat)
  | text characters => .text (String.ofList characters)

/-- The characters of a string. -/
def text? : Scalar → Option String
  | text characters => some (String.ofList characters)
  | _ => none

/-- The value of a whole number that is written without a power and without a point. -/
def natural? : Scalar → Option Nat
  | number false ⟨value, 0⟩ => some value
  | _ => none

end Scalar

/-- The row that the members of an object describe. -/
def row? (members : List Member) : Option ListingRow := do
  let label ← (← members.lookup "token_type").text?
  let lexeme ← (← members.lookup "lexeme").text?
  let line ← (← members.lookup "line").natural?
  some ⟨label, lexeme, (members.lookup "literal").map Scalar.literal, line⟩

/-- The row that a line of a listing shows. -/
def decode (line : String) : Option ListingRow := (readObject line.toList).bind row?

end Json

/-- Every symbol. -/
def Symbol.all : List Symbol :=
  [leftParen, rightParen, leftBrace, rightBrace, comma, minus, plus, semicolon, slash, star,
    bang, bangEqual, equal, equalEqual, greater, greaterEqual, less, lessEqual]

namespace ListingRow

/-- What the token of a row is. -/
def kind? (row : ListingRow) : Option TokenKind :=
  match row.label, row.literal? with
  | "IDENTIFIER", none => some (.identifier row.lexeme)
  | "STRING", some (.text body) => some (.string body)
  | "NUMBER", some (.number _) => some (.number row.lexeme)
  | label, _ =>
    match Symbol.all.find? (·.label == label) with
    | some s => some (.symbol s)
    | none => (Keyword.all.find? (·.label == label)).map .keyword

/-- The item that a row shows. -/
def item? (row : ListingRow) : Option ScanItem :=
  if row.label = "EOF" then some (.finish row.line)
  else row.kind?.map fun kind => .token ⟨kind, row.line⟩

/-- A row shows the item that it was made of. -/
theorem item?_row {item : ScanItem} {row : ListingRow} (shown : item.row = .ok row) : row.item? = some item := by
  cases item with
  | fault => cases shown
  | finish line =>
      cases shown
      rfl
  | token token =>
      cases shown
      rcases token with ⟨kind, line⟩
      cases kind with
      | symbol s => cases s <;> rfl
      | keyword k => cases k <;> rfl
      | identifier name => rfl
      | string body => rfl
      | number numeral => rfl

end ListingRow

/-! ## Writers of JSON -/

namespace Json

/-- What the value of a field is written as: a text as its characters, a finite number as digits that are read as this
number again, and any other number as null. -/
inductive Writes : FieldValue → Scalar → Prop where
  | text (text : String) : Writes (.text text) (.text text.toList)
  | number {x : Float} {negative : Bool} {magnitude : Decimal} (finite : x.isFinite = true)
      (reads : (if negative then -magnitude.toFloat else magnitude.toFloat) = x) :
      Writes (.number x) (.number negative magnitude)
  | notFinite {x : Float} (beyond : x.isFinite = false) : Writes (.number x) .null
  | natural (value : Nat) : Writes (.natural value) (.number false ⟨value, 0⟩)

/-- A member that stands for a field. -/
structure StandsFor (field : Field) (member : Member) : Prop where
  name : member.1 = field.name
  value : Writes field.value member.2

end Json

/-- A writer of JSON writes every record that has a field, as an object whose members stand for the fields. -/
def RecordWriter.IsJson (write : RecordWriter) : Prop :=
  ∀ record, record ≠ [] → ∃ text members, write record = .ok text ∧ Json.IsObject members text.toList ∧
    List.Forall₂ Json.StandsFor record members

/-! ## What is read back -/

namespace Json

variable {item : ScanItem} {row : ListingRow} {members : List Member}

/-- The literal of a token is read back from what it is written as.  Infinity is written null. -/
theorem Writes.literal_eq {kind : TokenKind} {literal : TokenLiteral} {scalar : Scalar}
    (writes : Writes literal.fieldValue scalar) (has : kind.literal? = some literal) :
    scalar.literal = literal ∧ ∀ x, literal = .number x → x.isFinite = false → scalar = .null := by
  cases kind with
  | symbol | keyword | identifier => cases has
  | string body =>
      cases has
      cases writes
      refine ⟨?_, nofun⟩
      rw [Scalar.literal, String.ofList_toList]
  | number numeral =>
      cases has
      have nearest := (Decimal.ofNumeral numeral.toList).isNearest_toFloat
      dsimp only [TokenLiteral.fieldValue] at writes
      generalize (Decimal.ofNumeral numeral.toList).toFloat = x at nearest writes ⊢
      cases writes with
      | number finite reads =>
          refine ⟨congrArg TokenLiteral.number reads, ?_⟩
          rintro _ ⟨⟩ beyond
          rw [finite] at beyond
          cases beyond
      | notFinite beyond =>
          rcases nearest.closest with ⟨v, worth, -⟩
          rcases Binary64.infinite_or_finite nearest.unsigned worth with ⟨same, -⟩ | ⟨significand, exponent, view⟩
          · exact ⟨congrArg TokenLiteral.number same.symm, fun _ _ _ => rfl⟩
          · rw [Binary64.isFinite_of_ofFloat view] at beyond
            cases beyond

/-- The members of a row, given what its literal is written as. -/
def membersOf (row : ListingRow) (literal? : Option Scalar) : List Member :=
  ("token_type", .text row.label.toList) :: ("lexeme", .text row.lexeme.toList) ::
    ((literal?.map fun scalar => ("literal", scalar)).toList ++ [("line", .number false ⟨row.line, 0⟩)])

namespace StandsFor

variable {name : String} {member : Member}

theorem eq_text {text : String} (stands : StandsFor ⟨name, .text text⟩ member) : member = (name, .text text.toList) := by
  rcases member with ⟨key, scalar⟩
  rcases stands with ⟨rfl, writes⟩
  cases writes
  rfl

theorem eq_natural {value : Nat} (stands : StandsFor ⟨name, .natural value⟩ member) :
    member = (name, .number false ⟨value, 0⟩) := by
  rcases member with ⟨key, scalar⟩
  rcases stands with ⟨rfl, writes⟩
  cases writes
  rfl

end StandsFor

/-- The members that stand for the record of a row are fixed but for the way its literal is written. -/
theorem exists_membersOf (stand : List.Forall₂ StandsFor row.record members) :
    ∃ literal?, members = membersOf row literal? ∧
      Option.Rel (fun literal scalar => Writes literal.fieldValue scalar) row.literal? literal? := by
  rcases row with ⟨label, lexeme, literal?, line⟩
  cases literal? with
  | none =>
      rcases stand with _ | ⟨first, _ | ⟨second, _ | ⟨third, _ | _⟩⟩⟩
      rw [first.eq_text, second.eq_text, third.eq_natural]
      exact ⟨none, rfl, .none⟩
  | some literal =>
      rcases stand with _ | ⟨first, _ | ⟨second, _ | ⟨third, _ | ⟨fourth, _ | _⟩⟩⟩⟩
      rename_i _ member _
      rcases member with ⟨key, scalar⟩
      rcases third with ⟨rfl, writes⟩
      rw [first.eq_text, second.eq_text, fourth.eq_natural]
      exact ⟨some scalar, rfl, .some writes⟩

/-- The members of a row describe it. -/
theorem row?_membersOf (row : ListingRow) {literal? : Option Scalar}
    (same : literal?.map Scalar.literal = row.literal?) : row? (membersOf row literal?) = some row := by
  have label : (membersOf row literal?).lookup "token_type" = some (.text row.label.toList) := rfl
  have lexeme : (membersOf row literal?).lookup "lexeme" = some (.text row.lexeme.toList) := rfl
  have line : (membersOf row literal?).lookup "line" = some (.number false ⟨row.line, 0⟩) := by
    cases literal? <;> rfl
  have literal : (membersOf row literal?).lookup "literal" = literal? := by
    cases literal? <;> rfl
  rw [row?, label, lexeme, line, literal, same]
  simp only [Scalar.text?, Scalar.natural?, String.ofList_toList, Option.bind_eq_bind, Option.bind_some]

theorem kind_of_row {literal : TokenLiteral} (shown : item.row = .ok row) (has : row.literal? = some literal) :
    ∃ kind : TokenKind, kind.literal? = some literal := by
  cases item with
  | fault => cases shown
  | finish =>
      cases shown
      cases has
  | token token =>
      cases shown
      exact ⟨token.kind, has⟩

/-- Members that stand for the record of an item's row describe this row, and infinity is written null. -/
theorem row?_eq (shown : item.row = .ok row) (stand : List.Forall₂ StandsFor row.record members) :
    row? members = some row ∧
      ∀ x, row.literal? = some (.number x) → x.isFinite = false → ("literal", .null) ∈ members := by
  rcases exists_membersOf stand with ⟨literal?, rfl, written⟩
  cases has : row.literal? with
  | none =>
      rw [has] at written
      cases written
      exact ⟨row?_membersOf row has.symm, nofun⟩
  | some literal =>
      rw [has] at written
      cases written with
      | some writes =>
          rcases kind_of_row shown has with ⟨kind, hasLiteral⟩
          rcases writes.literal_eq hasLiteral with ⟨same, overflow⟩
          refine ⟨row?_membersOf row ((congrArg some same).trans has.symm), fun x isNumber beyond => ?_⟩
          rw [overflow x (Option.some.inj isNumber) beyond, membersOf]
          simp

end Json

end ScopedScript
