import ScopedScript.CommandLine
import ScopedScript.Proofs.Lexing.Coverage
import ScopedScript.Proofs.Listing.JsonForms
namespace ScopedScript

/-!
# A JSON listing is decoded line by line

Each line is the text of one object, in which no control character stands.  In UTF-8 only the line feed itself
has its byte, so the output splits at this byte into the lines as they were written, however many line feeds
the lexemes of the tokens have.
-/

open CommandLine (lineFeed addLine listItems)

/-- Whether an item is a token, the end of the text included. -/
def ScanItem.isToken : ScanItem → Bool
  | fault _ _ => false
  | _ => true

theorem ScanItem.isToken_of_row {item : ScanItem} {row : ListingRow} (shown : item.row = .ok row) :
    item.isToken = true := by
  cases item with
  | fault => cases shown
  | token | finish => rfl

/-- The bytes of a text. -/
def bytesOf (text : String) : List UInt8 := text.toUTF8.data.toList

/-! ## Lines in bytes -/

/-- A line feed is a byte of no text without control characters. -/
theorem Json.IsVisible.lineFeed_notMem {text : String} (visible : IsVisible text.toList) : lineFeed ∉ bytesOf text := by
  have ascii : '\n'.toNat < 128 := by decide
  rw [bytesOf, toList_toUTF8]
  intro member
  have control : 0x20 ≤ '\n'.toNat := visible '\n' ((toUInt8_mem_encoded ascii text.toList).mp member)
  exact absurd control (by decide)

/-- Lines that a byte ends are what lies between these bytes. -/
theorem splitOn_lines {lines : List (List UInt8)} (whole : ∀ line ∈ lines, lineFeed ∉ line) :
    (lines.flatMap (· ++ [lineFeed])).splitOn lineFeed = lines ++ [[]] := by
  induction lines with
  | nil => rfl
  | cons line lines inductionHypothesis =>
      rcases List.forall_mem_cons.mp whole with ⟨here, others⟩
      have apart : ∀ byte ∈ line, (byte == lineFeed) = false := by
        intro byte member
        rw [beq_eq_false_iff_ne]
        exact ne_of_mem_of_not_mem member here
      rw [List.flatMap_cons, List.append_assoc, List.singleton_append, List.splitOn,
        List.splitOnP_append_cons_of_forall_mem apart lineFeed (beq_self_eq_true _), List.cons_append]
      exact congrArg (line :: ·) (inductionHypothesis others)

/-! ## The lines of a listing -/

theorem bytes_addLine (report : Report) (line : String) :
    (addLine report line).output.data.toList = report.output.data.toList ++ (bytesOf line ++ [lineFeed]) := by
  rw [addLine, ByteArray.data_append, Array.toList_append, bytesOf, toList_toUTF8, toList_toUTF8,
    String.toList_append, encoded_append]
  rfl

/-- What a line of a listing tells about an item: it is the text of an object from which the row of the item and
the item itself are decoded, and a number literal that is not finite is written null there. -/
def TellsOf (line : String) (item : ScanItem) : Prop :=
  ∃ row members, item.row = .ok row ∧ Json.IsObject members line.toList ∧
    Json.decode line = some row ∧ row.item? = some item ∧
      ∀ x, row.literal? = some (.number x) → x.isFinite = false → ("literal", .null) ∈ members

theorem TellsOf.lineFeed_notMem {line : String} {item : ScanItem} (tellsOf : TellsOf line item) :
    lineFeed ∉ bytesOf line := by
  rcases tellsOf with ⟨row, members, -, isObject, -⟩
  exact isObject.isVisible.lineFeed_notMem

section Writers

variable {write : RecordWriter}

/-- A writer of JSON writes every row, and the line tells of the item that the row shows. -/
theorem exists_line (isJson : write.IsJson) {item : ScanItem} {row : ListingRow} (shown : item.row = .ok row) :
    ∃ line, write row.record = .ok line ∧ TellsOf line item := by
  rcases isJson row.record (List.cons_ne_nil _ _) with ⟨line, members, written, isObject, stand⟩
  rcases Json.row?_eq shown stand with ⟨described, overflow⟩
  refine ⟨line, written, row, members, shown, isObject, ?_, ListingRow.item?_row shown, overflow⟩
  rw [Json.decode, Json.readObject_eq isObject]
  exact described

/-- A listing adds a line for each token and a line feed behind each, and nothing else. -/
theorem exists_lines (isJson : write.IsJson) (items : List ScanItem) (report : Report) :
    ∃ lines : List String, List.Forall₂ TellsOf lines (items.filter ScanItem.isToken) ∧
      (listItems (some write) report items).output.data.toList =
        report.output.data.toList ++ lines.flatMap fun line => bytesOf line ++ [lineFeed] := by
  induction items generalizing report with
  | nil => exact ⟨[], .nil, (List.append_nil _).symm⟩
  | cons item items inductionHypothesis =>
      cases shown : item.row with
      | error fault =>
          cases item with
          | fault fault line => exact inductionHypothesis _
          | token | finish => cases shown
      | ok row =>
          rcases exists_line isJson shown with ⟨line, written, tells⟩
          rcases inductionHypothesis (addLine report line) with ⟨lines, tellsOthers, output⟩
          refine ⟨line :: lines, ?_, ?_⟩
          · rw [List.filter_cons_of_pos (ScanItem.isToken_of_row shown)]
            exact .cons tells tellsOthers
          · rw [listItems, shown]
            dsimp only
            rw [written]
            dsimp only
            rw [output, bytes_addLine, List.flatMap_cons, List.append_assoc]

end Writers

/-- The JSON listing of a text splits at its line feeds into one line for each token, and nothing behind the last
of them.  Each line is the text of one object and is decoded to what the token shows, its type, lexeme, literal
and line, and to the token itself.  So it is whatever writes the objects, as long as it writes JSON. -/
theorem json_listing_decoded {write : RecordWriter} (isJson : write.IsJson) (host : Host) (name : String)
    (bytes input : List UInt8) (source : String) (valid : Utf8.decode bytes = .ok source) :
    ∃ lines : List String,
      (CommandLine.perform write host (.tokenize name true) (.content bytes) input).output.data.toList.splitOn
          lineFeed = lines.map bytesOf ++ [[]] ∧
      List.Forall₂ TellsOf lines ((scan source).filter ScanItem.isToken) := by
  rcases exists_lines isJson (scan source) {} with ⟨lines, tells, output⟩
  have performed : CommandLine.perform write host (.tokenize name true) (.content bytes) input =
      listItems (some write) {} (scan source) := by
    rw [CommandLine.perform, CommandLine.sourceOf, valid]
    rfl
  have whole : ∀ line ∈ lines.map bytesOf, lineFeed ∉ line := by
    rw [List.forall_mem_map]
    have apart := tells.imp fun line item tellsOf => And.intro tellsOf.lineFeed_notMem tellsOf
    exact ((List.forall₂_and_left _ _).mp apart).1
  refine ⟨lines, ?_, tells⟩
  rw [performed, output, ← splitOn_lines whole, List.flatMap_map]
  rfl

/-- A string over two lines, a number behind it, and then a quote that is never closed. -/
theorem json_listing_decoded_over_lines :
    CompactJson.write.IsJson ∧ Utf8.decode [34, 10, 34, 48, 46, 53, 34] = .ok "\"\n\"0.5\"" ∧
      ∃ first second third,
        (CommandLine.perform CompactJson.write {} (.tokenize "notes" true)
            (.content [34, 10, 34, 48, 46, 53, 34]) []).output.data.toList.splitOn lineFeed =
          [bytesOf first, bytesOf second, bytesOf third, []] ∧
        TellsOf first (.token ⟨.string "\n", 2⟩) ∧ TellsOf second (.token ⟨.number "0.5", 2⟩) ∧
        TellsOf third (.finish 2) := by
  have valid : Utf8.decode [34, 10, 34, 48, 46, 53, 34] = .ok "\"\n\"0.5\"" := by
    simp [Utf8.decode, Utf8.decodeFrom, Utf8.first]
  have tokens : (scan "\"\n\"0.5\"").filter ScanItem.isToken =
      [.token ⟨.string "\n", 2⟩, .token ⟨.number "0.5", 2⟩, .finish 2] := by
    rw [Lexer.scan_eq]
    cbv
  obtain ⟨lines, output, tells⟩ := json_listing_decoded CompactJson.isJson_write {} "notes"
    [34, 10, 34, 48, 46, 53, 34] [] "\"\n\"0.5\"" valid
  rw [tokens] at tells
  rcases tells with _ | ⟨first, _ | ⟨second, _ | ⟨third, _ | _⟩⟩⟩
  exact ⟨CompactJson.isJson_write, valid, _, _, _, output, first, second, third⟩

end ScopedScript
