import ScopedScript.Proofs.Lexing.LongestMatch
namespace ScopedScript

/-!
# How a piece goes on

Whether a beginning of a text is the longest match depends on everything behind it.  But the forms of the
grammar are such that the next character alone decides: where a text with a form is the beginning of a
longer one, it already has a form together with that character.  The only exception is the point of a
numeral, which needs a digit behind it.

So it is enough to know which characters a piece can go on with, and there are few of them.
-/

namespace Lexer

variable {piece other : Piece} {taken more : List Char} {c : Char}

/-! ## The characters of a form -/

/-- Parts of a word are letters, digits and underscores, the first one included. -/
theorem IsWord.isWordPart_of_mem {text : List Char} (isWord : IsWord text) (member : c ∈ text) :
    isWordPart c = true := by
  cases isWord with
  | word start parts =>
      rcases List.mem_cons.mp member with rfl | inside
      · apply isWordPart_iff.mpr
        rcases start with letter | underscore
        · exact .inl (by rw [Char.isAlphanum, letter, Bool.true_or])
        · exact .inr underscore
      · exact isWordPart_iff.mpr (parts c inside)

theorem IsWord.of_append (isWord : IsWord (taken ++ c :: more)) (filled : taken ≠ []) :
    IsWord (taken ++ [c]) := by
  obtain ⟨first, others, rfl⟩ := List.exists_cons_of_ne_nil filled
  rw [List.cons_append] at isWord ⊢
  cases isWord with
  | word start parts =>
      refine .word start fun d member => parts d ?_
      rcases List.mem_append.mp member with inside | last
      · exact List.mem_append_left _ inside
      · exact List.mem_append_right _ (List.mem_singleton.mp last ▸ List.mem_cons_self)

theorem isDigit_or_point_of_numeral {text : List Char} {q : ℚ} (numeral : Numeral text q)
    (member : c ∈ text) : c.isDigit ∨ c = '.' := by
  cases numeral with
  | whole written row => exact .inl (row c member)
  | fraction written row writtenBehind rowBehind =>
      simp only [List.mem_append, List.mem_cons] at member
      rcases member with inFront | isPoint | behind
      · exact .inl (row c inFront)
      · exact .inr isPoint
      · exact .inl (rowBehind c behind)

/-- A numeral with one more digit is a numeral. -/
theorem numeral_snoc {text : List Char} {q : ℚ} (numeral : Numeral text q) (isDigit : c.isDigit) :
    ∃ more, Numeral (text ++ [c]) more := by
  have last : ∀ d ∈ [c], d.isDigit := fun d member => List.mem_singleton.mp member ▸ isDigit
  cases numeral with
  | whole written row =>
      exact ⟨_, .whole (List.append_ne_nil_of_left_ne_nil written [c]) (List.forall_mem_append.mpr ⟨row, last⟩)⟩
  | @fraction digits behind written row writtenBehind rowBehind =>
      rw [List.append_assoc, List.cons_append]
      exact ⟨_, .fraction written row (List.append_ne_nil_of_left_ne_nil writtenBehind [c])
        (List.forall_mem_append.mpr ⟨rowBehind, last⟩)⟩

theorem Piece.Form.ne_nil (form : piece.Form taken) : taken ≠ [] := by
  obtain ⟨first, rest, rfl⟩ := form.exists_cons
  exact List.cons_ne_nil first rest

/-! ## The first character of a form -/

section Head

variable {first : Char} {rest : List Char}

theorem isWordStart_of_isWord (isWord : IsWord (first :: rest)) : isWordStart first = true := by
  cases isWord with
  | word start => exact isWordStart_iff.mpr start

/-- What begins with a blank is only that. -/
theorem Piece.Form.of_blank (form : piece.Form (first :: rest)) (blank : isBlank first = true) : rest = [] := by
  have short := (form.reaches []).atLeast
  unfold cut at short
  rw [if_pos blank] at short
  exact List.length_eq_zero_iff.mp (Nat.le_zero.mp short)

/-- What begins with a digit is a numeral. -/
theorem Piece.Form.of_digit (form : piece.Form (first :: rest)) (isDigit : first.isDigit) :
    ∃ q, Numeral (first :: rest) q := by
  have long := (form.reaches []).atLeast
  rw [cut_of_isDigit isDigit, List.append_nil] at long
  have within : rest.takeWhile Char.isDigit ++ Cut.fraction (rest.dropWhile Char.isDigit) <+:
      rest.takeWhile Char.isDigit ++ rest.dropWhile Char.isDigit :=
    (List.prefix_append_right_inj _).mpr (Cut.fraction_leads _)
  rw [List.takeWhile_append_dropWhile] at within
  have whole := numeral_of_cut isDigit rest
  rwa [within.eq_of_length_le long] at whole

/-- What begins with none of these is a symbol, a comment or a string. -/
theorem Piece.Form.of_mark (form : piece.Form (first :: rest)) (noBlank : isBlank first = false)
    (noDigit : first.isDigit = false) (noWord : isWordStart first = false) :
    (∃ s : Symbol, piece = .token (.symbol s) ∧ s.text.toList = first :: rest) ∨
      (∃ body, piece = .gap ∧ '\n' ∉ body ∧ first = '/' ∧ rest = '/' :: body) ∨
      ∃ body, '"' ∉ body ∧ first = '"' ∧ rest = body ++ ['"'] := by
  generalize text : first :: rest = all at form
  cases form with
  | blank isBlank =>
      cases text
      exact absurd (isBlank_iff.mpr isBlank) (Bool.eq_false_iff.mp noBlank)
  | comment oneLine =>
      cases text
      exact .inr (.inl ⟨_, rfl, oneLine, rfl, rfl⟩)
  | symbol s => exact .inl ⟨s, rfl, rfl⟩
  | keyword k =>
      have isWord := isWord_keyword k
      rw [← text] at isWord
      exact absurd (isWordStart_of_isWord isWord) (Bool.eq_false_iff.mp noWord)
  | identifier isWord =>
      subst text
      exact absurd (isWordStart_of_isWord isWord) (Bool.eq_false_iff.mp noWord)
  | number digits =>
      subst text
      exact absurd (numeral_reaches digits []).1 (Bool.eq_false_iff.mp noDigit)
  | string closed =>
      cases text
      exact .inr (.inr ⟨_, closed, rfl, rfl⟩)

/-- What begins with a quote is a string. -/
theorem Piece.Form.of_quote (form : piece.Form ('"' :: rest)) : ∃ body, '"' ∉ body ∧ rest = body ++ ['"'] := by
  rcases form.of_mark (by decide) (by decide) (by decide) with
    ⟨s, -, text⟩ | ⟨_, -, -, isSlash, -⟩ | ⟨body, closed, -, same⟩
  · cases s <;> simp [Symbol.text] at text
  · exact absurd isSlash (by decide)
  · exact ⟨body, closed, same⟩

/-- What begins with a slash is that symbol or a comment. -/
theorem Piece.Form.of_slash (form : piece.Form ('/' :: rest)) :
    (piece = .token (.symbol .slash) ∧ rest = []) ∨
      ∃ body, piece = .gap ∧ '\n' ∉ body ∧ rest = '/' :: body := by
  rcases form.of_mark (by decide) (by decide) (by decide) with
    ⟨s, same, text⟩ | ⟨body, same, oneLine, -, parts⟩ | ⟨_, -, isQuote, -⟩
  · cases s with
    | slash =>
        have empty : rest = [] := by simpa [Symbol.text] using text.symm
        exact .inl ⟨same, empty⟩
    | _ => simp [Symbol.text] at text
  · exact .inr ⟨body, same, oneLine, parts⟩
  · exact absurd isQuote (by decide)

end Head

/-! ## One more character -/

/-- A symbol has one character, or two of which the second is an equals sign. -/
theorem symbol_snoc (s : Symbol) (text : s.text.toList = taken ++ c :: more) (filled : taken ≠ []) :
    c = '=' ∧ more = [] := by
  obtain ⟨first, others, rfl⟩ := List.exists_cons_of_ne_nil filled
  cases s <;> simp [Symbol.text] at text
  all_goals
    obtain ⟨-, parts⟩ := text
    cases others with
    | nil => simpa using parts.symm
    | cons => simp at parts

/-- A text that goes on to a longer one with a form goes on with a point, or it has a form together with the
next character alone. -/
theorem Piece.Form.next (form : piece.Form taken) (longer : other.Form (taken ++ c :: more)) :
    c = '.' ∨ ∃ another : Piece, another.Form (taken ++ [c]) := by
  obtain ⟨first, others, rfl⟩ := form.exists_cons
  have filled : first :: others ≠ [] := List.cons_ne_nil first others
  generalize text : first :: others ++ c :: more = all at longer
  cases longer with
  | blank =>
      cases others <;> cases text
  | @comment body oneLine =>
      cases others with
      | nil =>
          cases text
          exact .inr ⟨.gap, .comment List.not_mem_nil⟩
      | cons second others =>
          cases text
          refine .inr ⟨.gap, .comment fun inside => oneLine ?_⟩
          rcases List.mem_append.mp inside with inFront | last
          · exact List.mem_append_left _ inFront
          · exact List.mem_append_right _ (List.mem_singleton.mp last ▸ List.mem_cons_self)
  | symbol s =>
      obtain ⟨rfl, rfl⟩ := symbol_snoc s text.symm filled
      rw [text]
      exact .inr ⟨_, .symbol s⟩
  | keyword k =>
      have isWord := isWord_keyword k
      rw [← text] at isWord
      exact .inr ⟨_, form_ofWord (isWord.of_append filled)⟩
  | identifier isWord =>
      rw [← text] at isWord
      exact .inr ⟨_, form_ofWord (isWord.of_append filled)⟩
  | number digits =>
      rw [← text] at digits
      obtain ⟨q, numeral⟩ := form.of_digit (numeral_reaches digits []).1
      have isNext : c ∈ first :: others ++ c :: more := List.mem_append_right _ List.mem_cons_self
      rcases isDigit_or_point_of_numeral digits isNext with isDigit | isPoint
      · obtain ⟨_, longer⟩ := numeral_snoc numeral isDigit
        exact .inr ⟨_, .number longer⟩
      · exact .inl isPoint
  | @string body closed =>
      rw [List.cons_append] at text
      obtain ⟨rfl, parts⟩ := List.cons.inj text
      obtain ⟨inside, -, rfl⟩ := form.of_quote
      -- The string in front has a closing quote, which would stand inside of the longer one.
      have body_eq := congrArg List.dropLast parts
      rw [List.dropLast_concat, List.append_assoc, List.singleton_append, List.dropLast_append_cons] at body_eq
      rw [← body_eq] at closed
      exact absurd (List.mem_append_right _ List.mem_cons_self) closed

/-- What a form of more than one character ends in, if it is no comment. -/
theorem Piece.Form.last (form : other.Form (taken ++ [c])) (filled : taken ≠ []) :
    (∃ body, taken ++ [c] = '/' :: '/' :: body ∧ '\n' ∉ body) ∨ isWordPart c = true ∨ c ∈ ['.', '=', '"'] := by
  generalize text : taken ++ [c] = all at form
  have inText : c ∈ all := text ▸ List.mem_append_right _ List.mem_cons_self
  cases form with
  | blank =>
      obtain ⟨first, others, rfl⟩ := List.exists_cons_of_ne_nil filled
      cases others <;> cases text
  | comment oneLine => exact .inl ⟨_, rfl, oneLine⟩
  | symbol s =>
      obtain ⟨rfl, -⟩ := symbol_snoc s text.symm filled
      exact .inr (.inr (by decide))
  | keyword k => exact .inr (.inl ((isWord_keyword k).isWordPart_of_mem inText))
  | identifier isWord => exact .inr (.inl (isWord.isWordPart_of_mem inText))
  | number digits =>
      rcases isDigit_or_point_of_numeral digits inText with isDigit | rfl
      · refine .inr (.inl (isWordPart_iff.mpr (.inl ?_)))
        rw [Char.isAlphanum, isDigit, Bool.or_true]
      · exact .inr (.inr (by decide))
  | @string body =>
      have last := congrArg List.getLast? text
      rw [List.getLast?_concat, ← List.cons_append, List.getLast?_concat] at last
      cases last
      exact .inr (.inr (by decide))

/-! ## Longest matches by their next character -/

/-- Nothing is longer than a whole text. -/
theorem Piece.Form.longest_whole (form : piece.Form taken) : Longest piece taken [] := by
  refine ⟨form, fun _ parts => ?_⟩
  rw [List.append_nil] at parts
  rw [← parts, List.length_append]
  exact Nat.le_add_right _ _

/-- Where a form does not go on with the next character, it is the longest match. -/
theorem Piece.Form.longest_before (form : piece.Form taken) (noPoint : c ≠ '.')
    (stops : ∀ another : Piece, ¬ another.Form (taken ++ [c])) (rest : List Char) :
    Longest piece taken (c :: rest) := by
  refine ⟨form, fun {other beginning more} longer parts => ?_⟩
  by_contra beyond
  rcases List.append_eq_append_iff.mp parts with ⟨further, same, -⟩ | ⟨further, same, behind⟩
  · rw [same, List.length_append] at beyond
    omega
  · cases further with
    | nil =>
        rw [same, List.append_nil] at beyond
        exact beyond (Nat.le_refl _)
    | cons next further =>
        obtain ⟨rfl, -⟩ := List.cons.inj behind
        rw [same] at longer
        rcases form.next longer with isPoint | ⟨another, goesOn⟩
        · exact noPoint isPoint
        · exact stops another goesOn

/-- A longest match does not go on with the next character. -/
theorem Longest.stops {rest : List Char} (longest : Longest piece taken (c :: rest)) (another : Piece) :
    ¬ another.Form (taken ++ [c]) := by
  intro goesOn
  have parts : taken ++ [c] ++ rest = taken ++ c :: rest := by rw [List.append_assoc, List.singleton_append]
  have atMost := longest.longest goesOn parts
  rw [List.length_append, List.length_singleton] at atMost
  omega

end Lexer

end ScopedScript
