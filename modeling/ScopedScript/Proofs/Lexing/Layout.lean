import ScopedScript.Proofs.Lexing.Continuations
namespace ScopedScript

/-!
# Layout does not matter

Layout is blank characters and comments.  `LaidOut` says that a text holds given tokens in order with layout
between them.  Two conditions keep the tokens apart: between two of them there is some layout, and no
comment follows a slash directly, for that would be a comment from the slash on.

A text that is laid out so is cut into exactly these tokens, whatever the layout.  In particular the tokens of
a text can be written with single spaces between them instead.
-/

namespace Lexer

/-- Blank characters, and comments that the end of their line closes. -/
inductive IsLayout : List Char → Prop where
  | done : IsLayout []
  | blank {c : Char} {rest : List Char} (isBlank : c ∈ [' ', '\t', '\r', '\n']) (others : IsLayout rest) :
      IsLayout (c :: rest)
  | comment {body rest : List Char} (oneLine : '\n' ∉ body) (others : IsLayout rest) :
      IsLayout ('/' :: '/' :: (body ++ '\n' :: rest))

/-- Layout at the end of a text, where the last comment may be closed by nothing else. -/
inductive IsTrailing : List Char → Prop where
  | layout {text : List Char} (isLayout : IsLayout text) : IsTrailing text
  | comment {text body : List Char} (isLayout : IsLayout text) (oneLine : '\n' ∉ body) :
      IsTrailing (text ++ '/' :: '/' :: body)

/-- Whether layout can stand behind what is in front: a slash keeps no comment away. -/
def Apart (front : Option TokenKind) (layout : List Char) : Prop :=
  front = some (.symbol .slash) → ¬ ['/', '/'] <+: layout

theorem apart_none {layout : List Char} : Apart none layout := by
  intro impossible
  cases impossible

/-- A text holds the given tokens with layout around them, behind another token or at its beginning. -/
inductive LaidOut : Option TokenKind → List TokenKind → List Char → Prop where
  | finish {front : Option TokenKind} {layout : List Char} (isTrailing : IsTrailing layout)
      (apart : Apart front layout) : LaidOut front [] layout
  | token {front : Option TokenKind} {kind : TokenKind} {kinds : List TokenKind} {layout text : List Char}
      (isLayout : IsLayout layout) (filled : front.isSome → layout ≠ []) (apart : Apart front layout)
      (spelled : Piece.Form (.token kind) kind.lexeme.toList) (others : LaidOut (some kind) kinds text) :
      LaidOut front (kind :: kinds) (layout ++ (kind.lexeme.toList ++ text))

/-! ## What layout begins with -/

/-- Blank characters, and the slash that begins a comment. -/
def layoutHeads : List Char := ['/', ' ', '\t', '\r', '\n']

/-- If a text begins as layout does and the first character is a slash, then it begins with a comment. -/
def BeginsAsLayout (text : List Char) : Prop :=
  ∀ c ∈ text.head?, c ∈ layoutHeads ∧ (c = '/' → ['/', '/'] <+: text)

theorem IsLayout.begins {layout : List Char} (isLayout : IsLayout layout) : BeginsAsLayout layout := by
  intro c isHead
  cases isLayout with
  | done => cases isHead
  | blank isBlank =>
      cases isHead
      refine ⟨List.mem_cons_of_mem _ isBlank, ?_⟩
      rintro rfl
      exact absurd isBlank (by decide)
  | comment =>
      cases isHead
      exact ⟨List.mem_cons_self, fun _ => ⟨_, rfl⟩⟩

theorem BeginsAsLayout.append {layout : List Char} (begins : BeginsAsLayout layout) (filled : layout ≠ [])
    (text : List Char) : BeginsAsLayout (layout ++ text) := by
  obtain ⟨first, others, rfl⟩ := List.exists_cons_of_ne_nil filled
  rintro c ⟨⟩
  refine (begins first rfl).imp_right fun comment isSlash => ?_
  exact (comment isSlash).trans (List.prefix_append _ _)

theorem IsTrailing.begins {layout : List Char} (isTrailing : IsTrailing layout) : BeginsAsLayout layout := by
  cases isTrailing with
  | layout isLayout => exact isLayout.begins
  | @comment text body isLayout =>
      by_cases filled : text = []
      · subst filled
        rintro c ⟨⟩
        exact ⟨List.mem_cons_self, fun _ => ⟨body, rfl⟩⟩
      · exact isLayout.begins.append filled _

/-- Behind a token a text begins with layout, and behind a slash not with a comment. -/
theorem LaidOut.head {front : TokenKind} {kinds : List TokenKind} {text : List Char}
    (laidOut : LaidOut (some front) kinds text) :
    ∀ c ∈ text.head?, c ∈ layoutHeads ∧ (c = '/' → front ≠ .symbol .slash) := by
  intro c isHead
  cases laidOut with
  | finish isTrailing apart =>
      refine (isTrailing.begins c isHead).imp_right fun comment isSlash isFront => ?_
      exact apart (congrArg some isFront) (comment isSlash)
  | @token _ _ _ layout _ isLayout filled apart =>
      have begins := isLayout.begins
      obtain ⟨first, others, rfl⟩ := List.exists_cons_of_ne_nil (filled rfl)
      cases isHead
      refine (begins c rfl).imp_right fun comment isSlash isFront => ?_
      exact apart (congrArg some isFront) (comment isSlash)

/-! ## Longest matches around layout -/

theorem noWordPart_of_layout {c : Char} (layout : c ∈ layoutHeads) : isWordPart c = false := by
  simp only [layoutHeads, List.mem_cons, List.not_mem_nil, or_false] at layout
  rcases layout with rfl | rfl | rfl | rfl | rfl <;> decide

theorem noMark_of_layout {c : Char} (layout : c ∈ layoutHeads) : c ∉ ['.', '=', '"'] := by
  simp only [layoutHeads, List.mem_cons, List.not_mem_nil, or_false] at layout
  rcases layout with rfl | rfl | rfl | rfl | rfl <;> decide

/-- Nothing but a comment has a blank character or a slash behind its first character. -/
theorem comment_of_form_snoc {another : Piece} {taken : List Char} {c : Char}
    (form : another.Form (taken ++ [c])) (filled : taken ≠ []) (layout : c ∈ layoutHeads) :
    ∃ body, taken ++ [c] = '/' :: '/' :: body ∧ '\n' ∉ body := by
  refine (form.last filled).resolve_right fun others => ?_
  rcases others with isPart | isMark
  · rw [noWordPart_of_layout layout] at isPart
    cases isPart
  · exact noMark_of_layout layout isMark

theorem longest_token {kind : TokenKind} {kinds : List TokenKind} {text : List Char}
    (spelled : Piece.Form (.token kind) kind.lexeme.toList) (laidOut : LaidOut (some kind) kinds text) :
    Longest (.token kind) kind.lexeme.toList text := by
  have head := laidOut.head
  cases text with
  | nil => exact spelled.longest_whole
  | cons c rest =>
      obtain ⟨layout, noSlash⟩ := head c rfl
      refine spelled.longest_before ?_ (fun another goesOn => ?_) rest
      · rintro rfl
        exact absurd layout (by decide)
      · obtain ⟨body, comment, -⟩ := comment_of_form_snoc goesOn spelled.ne_nil layout
        generalize kind.lexeme.toList = lexeme at *
        obtain ⟨first, others, rfl⟩ := spelled.exists_cons
        obtain ⟨rfl, behind⟩ := List.cons.inj comment
        rcases spelled.of_slash with ⟨same, rfl⟩ | ⟨_, impossible, -⟩
        · obtain ⟨rfl, -⟩ := List.cons.inj behind
          exact noSlash rfl (Piece.token.inj same)
        · cases impossible

theorem longest_blank {c : Char} (isBlank : c ∈ [' ', '\t', '\r', '\n']) (rest : List Char) :
    Longest .gap [c] rest := by
  refine ⟨.blank isBlank, fun {other beginning more} form parts => ?_⟩
  obtain ⟨first, others, rfl⟩ := form.exists_cons
  obtain ⟨rfl, -⟩ := List.cons.inj parts
  have alone := form.of_blank (isBlank_iff.mpr isBlank)
  rw [alone]

/-- A comment reaches up to the end of its line. -/
theorem longest_comment {body : List Char} (oneLine : '\n' ∉ body) (rest : List Char) :
    Longest .gap ('/' :: '/' :: body) ('\n' :: rest) := by
  have form : Piece.Form .gap ('/' :: '/' :: body) := .comment oneLine
  refine form.longest_before (by decide) (fun another goesOn => ?_) rest
  obtain ⟨longer, comment, oneLineToo⟩ := comment_of_form_snoc goesOn form.ne_nil (by decide)
  cases comment
  exact oneLineToo (List.mem_append_right _ List.mem_cons_self)

/-! ## Reading what is laid out -/

/-- From every line on, a text is read as tokens of the given kinds and nothing else. -/
def ReadsAs (kinds : List TokenKind) (text : List Char) : Prop :=
  ∀ line, ∃ (tokens : List Token) (last : Nat),
    Lexes line text (tokens.map .token ++ [.finish last]) ∧ tokens.map Token.kind = kinds

section Reading

variable {kinds : List TokenKind} {taken text : List Char}

theorem ReadsAs.nil : ReadsAs [] [] := fun line => ⟨[], line, .finish, rfl⟩

theorem ReadsAs.gap (longest : Longest .gap taken text) (reads : ReadsAs kinds text) :
    ReadsAs kinds (taken ++ text) := by
  intro line
  obtain ⟨tokens, last, lexes, same⟩ := reads (line + taken.count '\n')
  exact ⟨tokens, last, .gap longest lexes, same⟩

theorem ReadsAs.token {kind : TokenKind} (longest : Longest (.token kind) taken text)
    (reads : ReadsAs kinds text) : ReadsAs (kind :: kinds) (taken ++ text) := by
  intro line
  obtain ⟨tokens, last, lexes, same⟩ := reads (line + taken.count '\n')
  exact ⟨⟨kind, line + taken.count '\n'⟩ :: tokens, last,
    .token longest (hasLiteral_of_form longest.form) lexes, congrArg (kind :: ·) same⟩

theorem IsLayout.readsAs {layout : List Char} (isLayout : IsLayout layout) (reads : ReadsAs kinds text) :
    ReadsAs kinds (layout ++ text) := by
  induction isLayout with
  | done => exact reads
  | @blank c rest isBlank _ inductionHypothesis =>
      have whole := ReadsAs.gap (longest_blank isBlank (rest ++ text)) inductionHypothesis
      exact whole
  | @comment body rest oneLine _ inductionHypothesis =>
      have newline : ReadsAs kinds ('\n' :: (rest ++ text)) :=
        .gap (longest_blank (by decide) _) inductionHypothesis
      have whole := ReadsAs.gap (longest_comment oneLine (rest ++ text)) newline
      rwa [List.cons_append, List.cons_append, List.append_assoc, List.cons_append]

theorem IsTrailing.readsAs {layout : List Char} (isTrailing : IsTrailing layout) : ReadsAs [] layout := by
  cases isTrailing with
  | layout isLayout =>
      have reads := isLayout.readsAs .nil
      rwa [List.append_nil] at reads
  | @comment text body isLayout oneLine =>
      have form : Piece.Form .gap ('/' :: '/' :: body) := .comment oneLine
      have reads := ReadsAs.gap form.longest_whole .nil
      rw [List.append_nil] at reads
      exact isLayout.readsAs reads

/-- What is laid out is read as the tokens that it is laid out from. -/
theorem LaidOut.readsAs {front : Option TokenKind} (laidOut : LaidOut front kinds text) :
    ReadsAs kinds text := by
  induction laidOut with
  | finish isTrailing => exact isTrailing.readsAs
  | token isLayout _ _ spelled others inductionHypothesis =>
      exact isLayout.readsAs (.token (longest_token spelled others) inductionHypothesis)

end Reading

/-! ## Tokens with spaces between them -/

/-- Behind a token, the other ones can be written with a space in front of each. -/
theorem laidOut_spaced (front : TokenKind) {kinds : List TokenKind}
    (spelled : ∀ kind ∈ kinds, Piece.Form (.token kind) kind.lexeme.toList) :
    LaidOut (some front) kinds (kinds.flatMap fun kind => ' ' :: kind.lexeme.toList) := by
  have space : IsLayout [' '] := .blank (by decide) .done
  have apart : Apart (some front) [' '] := fun _ => by decide
  induction kinds generalizing front with
  | nil => exact .finish (.layout .done) fun _ => by decide
  | cons kind kinds inductionHypothesis =>
      obtain ⟨spelledFirst, spelledOthers⟩ := List.forall_mem_cons.mp spelled
      have others := inductionHypothesis kind spelledOthers fun _ => by decide
      exact .token space (fun _ => List.cons_ne_nil _ _) apart spelledFirst others

theorem toList_intercalate_lexeme (first : TokenKind) (others : List TokenKind) :
    (" ".intercalate ((first :: others).map TokenKind.lexeme)).toList =
      first.lexeme.toList ++ others.flatMap fun kind => ' ' :: kind.lexeme.toList := by
  induction others generalizing first with
  | nil => simp
  | cons second others inductionHypothesis =>
      rw [List.map_cons, List.map_cons, String.intercalate_cons_cons, String.toList_append, String.toList_append,
        ← List.map_cons, inductionHypothesis second, List.flatMap_cons, List.append_assoc]
      rfl

/-- Single spaces are layout enough. -/
theorem laidOut_intercalate {kinds : List TokenKind}
    (spelled : ∀ kind ∈ kinds, Piece.Form (.token kind) kind.lexeme.toList) :
    LaidOut none kinds (" ".intercalate (kinds.map TokenKind.lexeme)).toList := by
  cases kinds with
  | nil => exact .finish (.layout .done) apart_none
  | cons kind kinds =>
      obtain ⟨spelledFirst, spelledOthers⟩ := List.forall_mem_cons.mp spelled
      rw [toList_intercalate_lexeme]
      apply LaidOut.token .done (fun behind => absurd behind (by decide)) apart_none spelledFirst
      exact laidOut_spaced kind spelledOthers

/-! ## The tokens of a scan -/

theorem spelled_of_pieces {text : List Char} : ∀ part ∈ pieces text, ∀ kind, part.1 = .token kind →
    Piece.Form (.token kind) kind.lexeme.toList := by
  fun_induction pieces text with
  | case1 =>
      intro part member
      cases member
  | case2 first rest next inductionHypothesis =>
      exact List.forall_mem_cons.mpr ⟨cut_spelled first rest, inductionHypothesis⟩

theorem spelled_of_gathered {line : Nat} {found : List Token} {parts : List (Piece × List Char)}
    {stream : TokenStream} {P : TokenKind → Prop} (each : ∀ part ∈ parts, ∀ kind, part.1 = .token kind → P kind)
    (before : ∀ token ∈ found, P token.kind)
    (gathered : gatherTokens found (items line parts) = .ok stream) : ∀ token ∈ stream.tokens, P token.kind := by
  induction parts generalizing line found with
  | nil =>
      cases gathered
      exact fun token member => before token (List.mem_reverse.mp member)
  | cons part rest inductionHypothesis =>
      rcases part with ⟨piece, text⟩
      obtain ⟨here, others⟩ := List.forall_mem_cons.mp each
      cases piece with
      | gap => exact inductionHypothesis others before gathered
      | token kind =>
          exact inductionHypothesis others (List.forall_mem_cons.mpr ⟨here kind rfl, before⟩) gathered
      | fault => cases gathered

theorem gatherTokens_map (found tokens : List Token) (line : Nat) :
    gatherTokens found (tokens.map .token ++ [.finish line]) = .ok ⟨found.reverse ++ tokens, line⟩ := by
  induction tokens generalizing found with
  | nil => rw [List.append_nil]; rfl
  | cons first rest inductionHypothesis =>
      refine (inductionHypothesis (first :: found)).trans ?_
      rw [List.reverse_cons, List.append_assoc, List.singleton_append]

end Lexer

open Lexer

/-- The tokens that a text is laid out from come out of its scan, and nothing else but the end of the text. -/
theorem tokenize_laidOut {kinds : List TokenKind} {source : String}
    (laidOut : LaidOut none kinds source.toList) :
    ∃ tokens last, scan source = tokens.map .token ++ [.finish last] ∧
      tokenize source = .ok ⟨tokens, last⟩ ∧ tokens.map Token.kind = kinds := by
  obtain ⟨tokens, last, lexes, same⟩ := laidOut.readsAs 1
  have scanned : scan source = tokens.map .token ++ [.finish last] := by
    rw [scan_eq]
    exact lexes.eq_items.symm
  refine ⟨tokens, last, scanned, ?_, same⟩
  rw [tokenize, scanned]
  exact gatherTokens_map [] tokens last

theorem spelled_of_tokenize {source : String} {stream : TokenStream} (tokenized : tokenize source = .ok stream) :
    ∀ kind ∈ stream.tokens.map Token.kind, Piece.Form (.token kind) kind.lexeme.toList := by
  rw [tokenize, scan_eq] at tokenized
  intro kind isKind
  obtain ⟨token, member, rfl⟩ := List.mem_map.mp isKind
  have nothingYet : ∀ token ∈ ([] : List Token), Piece.Form (.token token.kind) token.kind.lexeme.toList := by
    intro token absent
    cases absent
  exact spelled_of_gathered spelled_of_pieces nothingYet tokenized token member

/-- Layout makes no difference to the tokens of a text, whatever it consists of: a text in which tokens are laid
out yields these tokens and no fault.  So the tokens of any text are also those of their lexemes with single
spaces between them. -/
theorem layout_immaterial :
    (∀ (kinds : List TokenKind) (source : String), LaidOut none kinds source.toList →
      ∃ tokens last, scan source = tokens.map .token ++ [.finish last] ∧
        tokenize source = .ok ⟨tokens, last⟩ ∧ tokens.map Token.kind = kinds) ∧
    ∀ (source : String) (stream : TokenStream), tokenize source = .ok stream →
      ∃ again : TokenStream,
        tokenize (" ".intercalate (stream.tokens.map fun token => token.kind.lexeme)) = .ok again ∧
        again.tokens.map Token.kind = stream.tokens.map Token.kind := by
  constructor
  · intro kinds source laidOut
    exact tokenize_laidOut laidOut
  · intro source stream tokenized
    have laidOut := laidOut_intercalate (spelled_of_tokenize tokenized)
    rw [List.map_map] at laidOut
    obtain ⟨tokens, last, -, again, same⟩ := tokenize_laidOut laidOut
    exact ⟨⟨tokens, last⟩, again, same⟩

/-- Two slashes that a tab keeps apart, a string of slashes, and comments on either side of an equals sign. -/
theorem layout_immaterial_around_slashes :
    ∃ tokens last, scan "/\t/ \"//\"\r! // is\n=//" = tokens.map .token ++ [.finish last] ∧
      tokenize "/\t/ \"//\"\r! // is\n=//" = .ok ⟨tokens, last⟩ ∧
      tokens.map Token.kind =
        [.symbol .slash, .symbol .slash, .string "//", .symbol .bang, .symbol .equal] := by
  apply layout_immaterial.1
  have string : Piece.Form (.token (.string "//")) (TokenKind.string "//").lexeme.toList :=
    Piece.Form.string (by decide)
  have parts : "/\t/ \"//\"\r! // is\n=//".toList =
      [] ++ ((TokenKind.symbol .slash).lexeme.toList ++ (['\t'] ++ ((TokenKind.symbol .slash).lexeme.toList ++
        ([' '] ++ ((TokenKind.string "//").lexeme.toList ++ (['\r'] ++ ((TokenKind.symbol .bang).lexeme.toList ++
          ((' ' :: '/' :: '/' :: ([' ', 'i', 's'] ++ '\n' :: [])) ++ ((TokenKind.symbol .equal).lexeme.toList ++
            ([] ++ ['/', '/'])))))))))) := by decide
  rw [parts]
  apply LaidOut.token .done (fun behind => absurd behind (by decide)) apart_none (.symbol .slash)
  apply LaidOut.token (.blank (by decide) .done) (by decide) (fun _ => by decide) (.symbol .slash)
  apply LaidOut.token (.blank (by decide) .done) (by decide) (fun _ => by decide) string
  apply LaidOut.token (.blank (by decide) .done) (by decide) (fun _ => by decide) (.symbol .bang)
  apply LaidOut.token (.blank (by decide) (.comment (by decide) .done)) (by decide) (fun _ => by decide)
    (.symbol .equal)
  exact .finish (.comment .done (by decide)) fun isSlash => absurd isSlash (by decide)

end ScopedScript
