import ScopedScript.Proofs.Lexing.Cursor
namespace ScopedScript

/-!
# A lexer reads what is cut

From a cursor in front of a character, `lex` reads the piece that `cut` finds there, and passes the characters that
the piece takes.  It never breaches the text.
-/

namespace Lexer

/-- The answer is the piece of a cut, and the cursor passed the characters of the cut. -/
def Cut.IsRead (next : Cut) (lexer : Lexer) (front : List Char) (first : Char) (rest : List Char)
    (answer : Except Breach (Piece × Lexer)) : Prop :=
  ∃ after, answer = .ok (next.piece, after) ∧
    lexer.Passes after front (first :: rest.take next.extra) (rest.drop next.extra)

variable {lexer behind after : Lexer} {front text back rest : List Char} {first : Char}

theorem Cut.IsRead.of_passes (piece : Piece) (opened : lexer.Passes behind front [first] (text ++ back))
    (passes : behind.Passes after (front ++ [first]) text back) :
    Cut.IsRead ⟨piece, text.length⟩ lexer front first (text ++ back) (.ok (piece, after)) := by
  refine ⟨after, rfl, ?_⟩
  dsimp only
  rw [List.take_left, List.drop_left]
  exact opened.trans passes

/-- The first character is the whole piece. -/
theorem Cut.IsRead.single {piece : Piece} (opened : lexer.Passes behind front [first] rest) :
    Cut.IsRead ⟨piece, 0⟩ lexer front first rest (.ok (piece, behind)) :=
  ⟨behind, rfl, opened⟩

theorem operator_isRead (plain withEqual : Symbol) (opened : lexer.Passes behind front [first] rest) :
    (Cut.operator plain withEqual rest).IsRead lexer front first rest (.ok (behind.operator withEqual plain)) := by
  have next : behind.peekAt 0 = '='.toUInt8 ↔ ∃ more, rest = '=' :: more :=
    opened.stands.peekAt_eq_iff (by decide) (by decide)
  unfold operator
  fun_cases Cut.operator plain withEqual rest with
  | case1 rest =>
      rw [if_pos (next.mpr ⟨rest, rfl⟩)]
      have equals := opened.stands.passes_moved (by decide) (by decide)
      exact .of_passes _ opened equals
  | case2 _ others =>
      rw [if_neg (next.not.mpr (not_exists.mpr others))]
      exact .single opened

/-- A text up to the first character of some kind, and that character with what stands behind it. -/
theorem split_at (c : Char) (text : List Char) :
    c ∉ text.takeWhile (· ≠ c) ∧
      (text.dropWhile (· ≠ c) = [] ∨ ∃ more, text.dropWhile (· ≠ c) = c :: more) := by
  refine ⟨fun inside => by simpa using List.mem_takeWhile_imp inside, ?_⟩
  cases stopped : text.dropWhile (· ≠ c) with
  | nil => exact .inl rfl
  | cons d more =>
      have stops := List.head?_dropWhile_not (· ≠ c) text
      rw [stopped] at stops
      have same : d = c := by simpa using stops
      exact .inr ⟨more, by rw [same]⟩

/-- A comment ends in front of the line feed, or at the end of the text. -/
theorem comment_isRead (opened : lexer.Passes behind front ['/'] ('/' :: rest)) :
    (Cut.slashOrComment ('/' :: rest)).IsRead lexer front '/' ('/' :: rest) behind.comment := by
  have stands := opened.stands
  rcases split_at '\n' rest with ⟨oneLine, stopped⟩
  have parts := List.takeWhile_append_dropWhile (p := (· ≠ '\n')) (l := rest)
  rw [Cut.slashOrComment, comment, if_pos stands.le_size]
  generalize rest.takeWhile (· ≠ '\n') = body at *
  generalize rest.dropWhile (· ≠ '\n') = others at *
  subst parts
  have oneLineToo : '\n' ∉ '/' :: body := List.not_mem_cons_of_ne_of_not_mem (by decide) oneLine
  rw [← List.cons_append] at stands
  have stop : (placeOf? '\n'.toUInt8 behind.bytes behind.position).getD behind.bytes.size =
      byteLength (front ++ ['/'] ++ '/' :: body) := by
    rcases stopped with rfl | ⟨more, rfl⟩
    · rw [List.append_nil] at stands
      rw [stands.placeOf?_none (by decide) oneLineToo, Option.getD_none, stands.size_eq, ← byteLength_append]
    · rw [stands.placeOf?_some (by decide) oneLineToo, Option.getD_some]
  dsimp only
  rw [stop]
  have passes := stands.passes_jump
  have noLine : newlines ('/' :: body) = 0 := List.count_eq_zero.mpr oneLineToo
  rw [noLine, Nat.add_zero] at passes
  rw [Nat.add_comm 1]
  exact .of_passes _ opened passes

theorem slashOrComment_isRead (opened : lexer.Passes behind front ['/'] rest) :
    (Cut.slashOrComment rest).IsRead lexer front '/' rest
      (if behind.peekAt 0 = '/'.toUInt8 then behind.comment else .ok (.token (.symbol .slash), behind)) := by
  have next : behind.peekAt 0 = '/'.toUInt8 ↔ ∃ more, rest = '/' :: more :=
    opened.stands.peekAt_eq_iff (by decide) (by decide)
  fun_cases Cut.slashOrComment rest with
  | case1 rest =>
      rw [if_pos (next.mpr ⟨rest, rfl⟩)]
      exact comment_isRead opened
  | case2 _ others =>
      rw [if_neg (next.not.mpr (not_exists.mpr others))]
      exact .single opened

theorem lineFeeds_toUTF8 (text : List Char) : lineFeeds (String.ofList text).toUTF8 = newlines text := by
  rw [lineFeeds, ← Array.count_toList, toList_toUTF8, String.toList_ofList]
  exact count_encoded (by decide) text

theorem Stands.lineFeeds_rest (stands : lexer.Stands front back) :
    lineFeeds (lexer.bytes.extract lexer.position lexer.bytes.size) = newlines back := by
  have rest : (lexer.bytes.extract lexer.position lexer.bytes.size).data.toList = encoded back := by
    rw [ByteArray.data_extract, Array.toList_extract, stands.toList_bytes, stands.position, stands.size_eq]
    simp [List.extract, byteLength]
  rw [lineFeeds, ← Array.count_toList, rest]
  exact count_encoded (by decide) back

theorem string_isRead (opened : lexer.Passes behind front ['"'] rest) :
    (Cut.string rest).IsRead lexer front '"' rest behind.string := by
  have stands := opened.stands
  rcases split_at '"' rest with ⟨isOpen, stopped⟩
  have parts := List.takeWhile_append_dropWhile (p := (· ≠ '"')) (l := rest)
  rw [Cut.string, string, if_pos stands.le_size]
  generalize rest.takeWhile (· ≠ '"') = body at *
  generalize rest.dropWhile (· ≠ '"') = others at *
  subst parts
  dsimp only
  rcases stopped with rfl | ⟨more, rfl⟩
  · have passes := stands.passes_jump
    rw [if_pos (by rw [List.append_nil]), List.append_nil]
    rw [List.append_nil] at stands
    rw [stands.placeOf?_none (by decide) isOpen]
    dsimp only
    rw [stands.lineFeeds_rest, stands.size_eq, ← byteLength_append]
    have read := Cut.IsRead.of_passes (.fault .unterminated) opened passes
    rwa [List.append_nil] at read
  · have closes : (body ++ '"' :: more).length ≠ body.length := by
      rw [List.length_append, List.length_cons]
      omega
    have closed : behind.Stands (front ++ ['"']) ((body ++ ['"']) ++ more) := by
      rw [List.append_assoc]
      exact stands
    have noLine : newlines (body ++ ['"']) = newlines body := newlines_append body ['"']
    have length : byteLength (front ++ ['"'] ++ (body ++ ['"'])) = byteLength (front ++ ['"'] ++ body) + 1 := by
      rw [← List.append_assoc, byteLength_append _ ['"']]
      rfl
    have passes := closed.passes_jump
    rw [noLine, length] at passes
    rw [if_neg (Ne.symm closes), stands.placeOf?_some (by decide) isOpen]
    dsimp only
    rw [stands.position, slice_eq stands.text]
    rw [List.append_cons] at opened
    have read := Cut.IsRead.of_passes (.token (.string (String.ofList body))) opened passes
    rw [← lineFeeds_toUTF8, List.append_assoc, List.length_append] at read
    exact read

theorem word_isRead (marked : lexer.start = byteLength front) (opened : lexer.Passes behind front [first] rest) :
    (Cut.word first rest).IsRead lexer front first rest behind.word := by
  have passes := passes_pass wordParts rfl opened.stands
  have parts : rest.takeWhile wordParts.includes ++ rest.dropWhile wordParts.includes = rest :=
    List.takeWhile_append_dropWhile
  rw [← parts] at opened
  have read := Cut.IsRead.of_passes
    (.token (.ofWord (String.ofList (first :: rest.takeWhile wordParts.includes)))) opened passes
  rw [parts] at read
  have sliced := (opened.trans passes).sliced marked
  rw [Lexer.word, sliced]
  exact read

theorem fraction_passes (stands : lexer.Stands front back) :
    ∃ others, back = Cut.fraction back ++ others ∧
      lexer.Passes lexer.fraction front (Cut.fraction back) others := by
  have next : lexer.peekAt 0 = '.'.toUInt8 ↔ ∃ more, back = '.' :: more :=
    stands.peekAt_eq_iff (by decide) (by decide)
  unfold fraction
  fun_cases Cut.fraction back with
  | case1 digit others isDigit =>
      have point := stands.passes_moved (by decide) (by decide)
      have more : lexer.meets digits 1 = true := by
        have met := point.stands.meets_eq digits
        rw [List.head?_cons, Option.any_some] at met
        exact met.trans isDigit
      have passes := passes_pass digits rfl point.stands
      have included : digits.includes digit = true := isDigit
      rw [List.takeWhile_cons_of_pos included, List.dropWhile_cons_of_pos included] at passes
      rw [if_pos ⟨next.mpr ⟨_, rfl⟩, more⟩]
      refine ⟨others.dropWhile digits.includes, ?_, ?_⟩
      · exact congrArg ('.' :: digit :: ·) List.takeWhile_append_dropWhile.symm
      · have parts : digit :: others = (digit :: others.takeWhile digits.includes) ++ others.dropWhile digits.includes :=
          congrArg (digit :: ·) List.takeWhile_append_dropWhile.symm
        rw [parts] at point
        exact point.trans passes
  | case2 digit others noDigit =>
      have noMore : ¬(lexer.peekAt 0 = '.'.toUInt8 ∧ lexer.meets digits 1 = true) := by
        rintro ⟨-, more⟩
        have point := stands.passes_moved (by decide) (by decide)
        have met := point.stands.meets_eq digits
        rw [List.head?_cons, Option.any_some] at met
        exact noDigit (met.symm.trans more)
      rw [if_neg noMore]
      exact ⟨_, rfl, stands.passes_nil⟩
  | case3 _ others =>
      have noMore : ¬(lexer.peekAt 0 = '.'.toUInt8 ∧ lexer.meets digits 1 = true) := by
        rintro ⟨point, more⟩
        rcases next.mp point with ⟨rest, rfl⟩
        have met := (stands.moved (by decide)).meets_eq digits
        cases rest with
        | nil => exact absurd (met.symm.trans more) Bool.false_ne_true
        | cons digit rest => exact others digit rest rfl
      rw [if_neg noMore]
      exact ⟨_, rfl, stands.passes_nil⟩

theorem number_isRead (marked : lexer.start = byteLength front) (opened : lexer.Passes behind front [first] rest) :
    (Cut.number first rest).IsRead lexer front first rest behind.number := by
  have whole := passes_pass digits rfl opened.stands
  rcases fraction_passes whole.stands with ⟨others, parts, tail⟩
  have passes : behind.Passes (behind.pass digits).fraction (front ++ [first])
      (rest.takeWhile digits.includes ++ Cut.fraction (rest.dropWhile digits.includes)) others := by
    rw [parts] at whole
    exact whole.trans tail
  have joined : rest.takeWhile digits.includes ++ Cut.fraction (rest.dropWhile digits.includes) ++ others = rest := by
    rw [List.append_assoc, ← parts, List.takeWhile_append_dropWhile]
  rw [← joined] at opened
  have read := Cut.IsRead.of_passes (.token (.number (String.ofList (first ::
    (rest.takeWhile digits.includes ++ Cut.fraction (rest.dropWhile digits.includes)))))) opened passes
  rw [joined] at read
  have sliced := (opened.trans passes).sliced marked
  rw [Lexer.number, sliced]
  exact read

/-- A character that begins nothing is found in the text, whatever its bytes are. -/
theorem unexpected_isRead (byte : UInt8) (stands : lexer.Stands front (first :: rest)) (oneLine : first ≠ '\n')
    (marked : lexer.start = byteLength front) :
    Cut.IsRead ⟨.fault (.unexpected first), 0⟩ lexer front first rest
      (unexpected { lexer with position := lexer.position + 1 } byte) := by
  have passes := @Stands.passes_jump lexer front [first] rest stands
  have noLine : newlines [first] = 0 := List.count_eq_zero.mpr (mt List.mem_singleton.mp (Ne.symm oneLine))
  have found : character? { lexer with position := lexer.position + 1 } lexer.start = .ok (some first) := by
    rw [marked]
    exact character?_eq stands.text
  rw [noLine, Nat.add_zero, byteLength_append, byteLength_singleton, ← marked] at passes
  refine ⟨_, ?_, passes⟩
  rw [unexpected, found]
  rfl

theorem isWordStart_ascii (c : Char) (isStart : isWordStart c = true) : c.toNat < 128 := by
  refine isWordPart_ascii c ?_
  rw [isWordStart, Bool.or_eq_true] at isStart
  rw [isWordPart, Char.isAlphanum, Bool.or_eq_true, Bool.or_eq_true]
  exact isStart.imp_left .inl

theorem isBlank_ascii (c : Char) (blank : isBlank c = true) : c.toNat < 128 := by
  simp only [Lexer.isBlank, Bool.or_eq_true, decide_eq_true_eq] at blank
  rcases blank with ((rfl | rfl) | rfl) | rfl <;> decide

/-- A byte beyond ASCII begins nothing. -/
theorem lexBehind_beyond {byte : UInt8} (beyond : 128 ≤ (Char.ofUInt8 byte).toNat) (lexer : Lexer) :
    lexBehind byte lexer = lexer.unexpected byte := by
  unfold lexBehind
  generalize Char.ofUInt8 byte = c at beyond ⊢
  split
  all_goals try
    exact absurd beyond (by decide)
  rw [if_neg (not_of_beyond isDigit_ascii beyond), if_neg (not_of_beyond isWordStart_ascii beyond)]

theorem cut_beyond (beyond : 128 ≤ first.toNat) (rest : List Char) :
    cut first rest = ⟨.fault (.unexpected first), 0⟩ := by
  unfold cut
  rw [if_neg (not_of_beyond isBlank_ascii beyond), if_neg (not_of_beyond isDigit_ascii beyond),
    if_neg (not_of_beyond isWordStart_ascii beyond)]
  split
  all_goals try
    exact absurd beyond (by decide)
  rfl

/-- Behind a character of ASCII, what it begins is read. -/
theorem lexBehind_isRead {byte : UInt8} (same : Char.ofUInt8 byte = first) (ascii : first.toNat < 128)
    (stands : lexer.Stands front (first :: rest)) (marked : lexer.start = byteLength front) :
    (cut first rest).IsRead lexer front first rest (lexBehind byte { lexer with position := lexer.position + 1 }) := by
  have opened := stands.passes_moved ascii
  have unexpected := fun oneLine => unexpected_isRead byte stands oneLine marked
  have number := fun oneLine => number_isRead marked (opened oneLine)
  have word := fun oneLine => word_isRead marked (opened oneLine)
  unfold lexBehind
  rw [same]
  split
  all_goals try
    exact .single (opened (by decide))
  · exact operator_isRead _ _ (opened (by decide))
  · exact operator_isRead _ _ (opened (by decide))
  · exact operator_isRead _ _ (opened (by decide))
  · exact operator_isRead _ _ (opened (by decide))
  · exact slashOrComment_isRead (opened (by decide))
  · exact .single (stands.passes_newline)
  · exact string_isRead (opened (by decide))
  next noMark =>
    have oneLine : first ≠ '\n' := by assumption
    have noBlank : ¬isBlank first = true := by
      simp only [Lexer.isBlank, Bool.or_eq_true, decide_eq_true_eq]
      rintro (((rfl | rfl) | rfl) | rfl) <;> contradiction
    unfold cut
    rw [if_neg noBlank]
    split
    next => exact number oneLine
    split
    next => exact word oneLine
    split
    all_goals try contradiction
    exact unexpected oneLine

/-- The first byte of a character decides about the piece as the character does. -/
theorem lex_isRead (stands : lexer.Stands front (first :: rest)) (marked : lexer.start = byteLength front) :
    (cut first rest).IsRead lexer front first rest lexer.lex := by
  have inside : lexer.position < lexer.bytes.size := by
    rw [stands.position, stands.size_eq]
    exact Nat.lt_add_of_pos_right (byteLength_cons_pos first rest)
  have under : lexer.bytes[lexer.position] = lexer.peekAt 0 := by
    rw [peekAt, dif_pos (by exact inside)]
    rfl
  have leading := stands.leading
  rw [lex, bump, dif_pos inside, under]
  generalize lexer.peekAt 0 = byte at leading
  change (cut first rest).IsRead lexer front first rest (lexBehind byte { lexer with position := lexer.position + 1 })
  rcases leading with ⟨same, ascii⟩ | ⟨beyond, beyondToo⟩
  · exact lexBehind_isRead same ascii stands marked
  · have oneLine : first ≠ '\n' := by
      rintro rfl
      exact absurd beyondToo (by decide)
    rw [lexBehind_beyond beyond, cut_beyond beyondToo]
    exact unexpected_isRead byte stands oneLine marked

end Lexer

end ScopedScript
