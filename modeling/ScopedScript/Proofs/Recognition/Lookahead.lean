import ScopedScript.Proofs.Grammar.ExpressionRules
import ScopedScript.Proofs.Recognition.Sentences
namespace ScopedScript

/-!
# Reading with one token of lookahead

A reader obeys a language on given tokens when the following holds.  If it succeeds, what it has used up is a word
of the language.  If it fails, what it has used up can be completed to a word of the language, and the token behind
that is the one it reports.  In both cases the token behind is the last it has looked at: whatever else comes
later, the answer is the same.

Readers in a row obey the language of what they read together.  `Obeys.bind` says so in terms of what is left to
read, so that nothing has to be known of a word but how it can go on.
-/

/-- What tokens are. -/
def kinds (tokens : List Token) : Word := tokens.map Token.kind

namespace Word

/-- The word can go on to a word of the language. -/
def Viable (Language : Word → Prop) (begun : Word) : Prop := ∃ more, Language (begun ++ more)

/-- A word of the language and a symbol behind it. -/
def Then (Language : Word → Prop) (stop : Symbol) (word : Word) : Prop :=
  ∃ body, Language body ∧ word = body ++ [.symbol stop]

theorem viable_of {Language : Word → Prop} {word : Word} (finished : Language word) : Viable Language word :=
  ⟨[], by rwa [List.append_nil]⟩

end Word

open Word (Viable)

namespace Complaint

/-- Whether a complaint is about something that the grammar itself allows. -/
def isBeyond : Complaint → Bool
  | assignmentTarget | tooManyParameters | tooManyArguments => true
  | _ => false

end Complaint

/-- A rule of the parser on tokens, whatever the next free identity. -/
abbrev Reader (α : Type) := List Token → Except SyntaxError (Parsed α)

/-- The reader has used up a word of the language, and depends on nothing behind the next token. -/
def ReadsWord {α : Type} (Language : Word → Prop) (reader : Reader α) (tokens : List Token) (out : Parsed α) :
    Prop :=
  ∃ used, tokens = used ++ out.rest ∧ Language (kinds used) ∧
    ∀ rest, rest.head? = out.rest.head? → reader (used ++ rest) = .ok ⟨out.value, out.next, rest⟩

/-- The reader has used up the beginning of a word of the language, and has failed at the next token. -/
def FailsNext {α : Type} (Language : Word → Prop) (reader : Reader α) (tokens : List Token) (error : SyntaxError) :
    Prop :=
  ∃ used rest, tokens = used ++ rest ∧ error.found = rest.head? ∧ Viable Language (kinds used) ∧
    ∀ other, other.head? = rest.head? → reader (used ++ other) = .error error

/-- The reader obeys the language on these tokens. -/
def Obeys {α : Type} (Language : Word → Prop) (reader : Reader α) (tokens : List Token) : Prop :=
  match reader tokens with
  | .ok out => ReadsWord Language reader tokens out
  | .error error => error.complaint.isBeyond = false → FailsNext Language reader tokens error

section

variable {α β : Type} {Language Other : Word → Prop} {reader other : Reader α} {tokens rest used : List Token}
  {token : Token} {out : Parsed α} {error : SyntaxError}

theorem Obeys.readsWord (obeys : Obeys Language reader tokens) (read : reader tokens = .ok out) :
    ReadsWord Language reader tokens out := by
  rw [Obeys, read] at obeys
  exact obeys

theorem Obeys.failsNext (obeys : Obeys Language reader tokens) (failed : reader tokens = .error error)
    (within : error.complaint.isBeyond = false) : FailsNext Language reader tokens error := by
  rw [Obeys, failed] at obeys
  exact obeys within

theorem obeys_of (reads : ∀ out, reader tokens = .ok out → ReadsWord Language reader tokens out)
    (fails : ∀ error, reader tokens = .error error → error.complaint.isBeyond = false →
      FailsNext Language reader tokens error) : Obeys Language reader tokens := by
  rw [Obeys]
  split
  · exact reads _ ‹_›
  · exact fails _ ‹_›

/-! ## Single steps -/

/-- Nothing more is read. -/
theorem obeys_done (value : α) (next : RefId) (tokens : List Token) (finished : Language []) :
    Obeys Language (fun rest => .ok ⟨value, next, rest⟩) tokens :=
  ⟨[], rfl, finished, fun _ _ => rfl⟩

/-- Nothing more is read behind a word of the language. -/
theorem obeys_behind {word : Word} (value : α) (next : RefId) (tokens : List Token) (finished : Language word) :
    Obeys (fun more => Language (word ++ more)) (fun rest => .ok ⟨value, next, rest⟩) tokens :=
  obeys_done value next tokens (by rwa [List.append_nil])

/-- The next token is refused. -/
theorem obeys_refuse (complaint : Complaint) (tokens : List Token) (viable : Viable Language []) :
    Obeys Language (fun tokens => (Parser.refuse complaint tokens : Except SyntaxError (Parsed α))) tokens := by
  intro _
  refine ⟨[], tokens, rfl, rfl, viable, fun other same => ?_⟩
  exact congrArg (fun found => Except.error (SyntaxError.mk complaint found)) same

/-- What the grammar itself allows is refused. -/
theorem obeys_of_isBeyond (failed : reader tokens = .error error) (beyond : error.complaint.isBeyond = true) :
    Obeys Language reader tokens := by
  rw [Obeys, failed]
  intro within
  rw [beyond] at within
  cases within

/-- Two tokens with something between them are the same when they begin it. -/
theorem head?_append_congr {first second : List Token} (used : List Token) (same : first.head? = second.head?) :
    (used ++ first).head? = (used ++ second).head? := by
  cases used with
  | nil => exact same
  | cons token used => rfl

/-- It is enough to know a reader on tokens that begin alike. -/
theorem Obeys.of_head (obeys : Obeys Language other tokens)
    (same : ∀ tokens', tokens'.head? = tokens.head? → reader tokens' = other tokens') :
    Obeys Language reader tokens := by
  refine obeys_of (fun out read => ?_) fun error failed within => ?_
  · rw [same tokens rfl] at read
    rcases obeys.readsWord read with ⟨used, rfl, word, alone⟩
    exact ⟨used, rfl, word, fun rest alike => (same _ (head?_append_congr used alike)).trans (alone rest alike)⟩
  · rw [same tokens rfl] at failed
    rcases obeys.failsNext failed within with ⟨used, rest, rfl, found, viable, alone⟩
    exact ⟨used, rest, rfl, found, viable,
      fun rest' alike => (same _ (head?_append_congr used alike)).trans (alone rest' alike)⟩

theorem Obeys.imp (obeys : Obeys Language reader tokens) (included : ∀ word, Language word → Other word) :
    Obeys Other reader tokens := by
  refine obeys_of (fun out read => ?_) fun error failed within => ?_
  · rcases obeys.readsWord read with ⟨used, split, word, alone⟩
    exact ⟨used, split, included _ word, alone⟩
  · rcases obeys.failsNext failed within with ⟨used, rest, split, found, ⟨more, word⟩, alone⟩
    exact ⟨used, rest, split, found, ⟨more, included _ word⟩, alone⟩

/-- One token is read before everything else. -/
theorem Obeys.cons (same : ∀ rest, reader (token :: rest) = other rest)
    (obeys : Obeys (fun word => Language (token.kind :: word)) other rest) :
    Obeys Language reader (token :: rest) := by
  refine obeys_of (fun out read => ?_) fun error failed within => ?_
  · rw [same] at read
    rcases obeys.readsWord read with ⟨used, rfl, word, alone⟩
    exact ⟨token :: used, rfl, word, fun rest alike => (same _).trans (alone rest alike)⟩
  · rw [same] at failed
    rcases obeys.failsNext failed within with ⟨used, behind, rfl, found, viable, alone⟩
    exact ⟨token :: used, behind, rfl, found, viable, fun rest alike => (same _).trans (alone rest alike)⟩

/-! ## Readers in a row -/

/-- One reader after another: every word of the first can go on, and the second obeys what is left of it. -/
theorem Obeys.bind {first : Reader β} {second : Parsed β → Except SyntaxError (Parsed α)}
    (obeys : Obeys Other first tokens) (goesOn : ∀ word, Other word → Viable Language word)
    (continues : ∀ used value next rest, tokens = used ++ rest → first tokens = .ok ⟨value, next, rest⟩ →
      Other (kinds used) →
      Obeys (fun word => Language (kinds used ++ word)) (fun rest => second ⟨value, next, rest⟩) rest) :
    Obeys Language (fun tokens => first tokens >>= second) tokens := by
  cases read : first tokens with
  | error error =>
      have failed : (first tokens >>= second) = .error error := by rw [read]; rfl
      refine obeys_of (fun out impossible => ?_) fun error' failed' within => ?_
      · rw [failed] at impossible
        cases impossible
      · rw [failed] at failed'
        cases failed'
        rcases obeys.failsNext read within with ⟨used, rest, split, found, ⟨more, word⟩, alone⟩
        rcases goesOn _ word with ⟨finish, whole⟩
        refine ⟨used, rest, split, found, ⟨more ++ finish, ?_⟩, fun rest' alike => ?_⟩
        · rwa [← List.append_assoc]
        · dsimp only
          rw [alone rest' alike]
          rfl
  | ok middle =>
      rcases middle with ⟨value, next, rest⟩
      rcases obeys.readsWord read with ⟨used, split, word, alone⟩
      have behind := continues used value next rest split read word
      have passes : ∀ rest', rest'.head? = rest.head? →
          (first (used ++ rest') >>= second) = second ⟨value, next, rest'⟩ := by
        intro rest' alike
        rw [alone rest' alike]
        rfl
      dsimp only at split
      subst split
      refine obeys_of (fun out read' => ?_) fun error failed within => ?_
      · rw [passes rest rfl] at read'
        rcases behind.readsWord read' with ⟨more, split, wordToo, aloneToo⟩
        refine ⟨used ++ more, ?_, ?_, fun rest' alike => ?_⟩
        · rw [List.append_assoc, ← split]
        · rw [kinds, List.map_append]
          exact wordToo
        · dsimp only
          rw [List.append_assoc]
          refine (passes _ ?_).trans (aloneToo rest' alike)
          rw [split]
          exact head?_append_congr more alike
      · rw [passes rest rfl] at failed
        rcases behind.failsNext failed within with ⟨more, behind', split, found, viable, aloneToo⟩
        refine ⟨used ++ more, behind', ?_, found, ?_, fun rest' alike => ?_⟩
        · rw [List.append_assoc, ← split]
        · rcases viable with ⟨finish, whole⟩
          refine ⟨finish, ?_⟩
          rw [kinds, List.map_append, List.append_assoc]
          exact whole
        · dsimp only
          rw [List.append_assoc]
          refine (passes _ ?_).trans (aloneToo rest' alike)
          rw [split]
          exact head?_append_congr more alike

/-- Nothing more is read, but something else is made of the value. -/
theorem Obeys.make {first : Reader β} (f : β → α) (obeys : Obeys Other first tokens)
    (included : ∀ word, Other word → Language word) :
    Obeys Language (fun tokens => first tokens >>= fun out => .ok ⟨f out.value, out.next, out.rest⟩) tokens :=
  obeys.bind (fun word other => Word.viable_of (included word other)) fun _ value next rest _ _ other =>
    obeys_behind (f value) next rest (included _ other)

/-- A reader may refuse, after all, what it has read in full, if the grammar itself allows it. -/
theorem Obeys.bind_beyond {first : Reader β} {second : List Token → Parsed β → Except SyntaxError (Parsed α)}
    (obeys : Obeys Other first tokens) (goesOn : ∀ word, Other word → Viable Language word)
    (refused : ∀ tokens out, ∃ error, second tokens out = .error error ∧ error.complaint.isBeyond = true) :
    Obeys Language (fun tokens => first tokens >>= second tokens) tokens := by
  cases read : first tokens with
  | ok out =>
      rcases refused tokens out with ⟨error, failed, beyond⟩
      refine obeys_of_isBeyond ?_ beyond
      rw [read]
      exact failed
  | error error =>
      refine obeys_of (fun out impossible => ?_) fun error' failed within => ?_
      · rw [read] at impossible
        cases impossible
      · rw [read] at failed
        cases failed
        rcases obeys.failsNext read within with ⟨used, rest, split, found, ⟨more, word⟩, alone⟩
        rcases goesOn _ word with ⟨finish, whole⟩
        refine ⟨used, rest, split, found, ⟨more ++ finish, ?_⟩, fun rest' alike => ?_⟩
        · rwa [← List.append_assoc]
        · dsimp only
          rw [alone rest' alike]
          rfl

/-! ## The next token -/

/-- The next token is of a kind, or no tokens that begin alike begin with one of that kind. -/
theorem next_or (kind : TokenKind) (tokens : List Token) : (∃ line rest, tokens = ⟨kind, line⟩ :: rest) ∨
    ∀ tokens', tokens'.head? = tokens.head? → ∀ line rest, tokens' ≠ ⟨kind, line⟩ :: rest := by
  rcases tokens with _ | ⟨⟨found, line⟩, rest⟩
  · refine .inr fun tokens' alike line rest same => ?_
    rw [same] at alike
    cases alike
  · by_cases same : found = kind
    · exact .inl ⟨line, rest, by rw [same]⟩
    · refine .inr fun tokens' alike line rest same' => same ?_
      rw [same'] at alike
      cases alike
      rfl

theorem eq_nil_of_head? {tokens : List Token} (alike : tokens.head? = ([] : List Token).head?) : tokens = [] :=
  List.head?_eq_none_iff.mp alike

theorem eq_cons_of_head? {tokens : List Token} (alike : tokens.head? = (token :: rest).head?) :
    ∃ behind, tokens = token :: behind := by
  cases tokens with
  | nil => cases alike
  | cons first behind =>
      cases alike
      exact ⟨behind, rfl⟩

end

end ScopedScript
