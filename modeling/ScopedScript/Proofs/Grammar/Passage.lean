import Mathlib.Data.List.Forall2
import ScopedScript.Proofs.Grammar.Ladder
import ScopedScript.Proofs.Grammar.References
import ScopedScript.Proofs.Grammar.Spelling
namespace ScopedScript

/-!
# From one place of a text to a later one

A rule that succeeds moves from one place to another: it uses up tokens and hands out identities.  A
`Passage` says which marks the tokens in between fit and which identities were handed out.  Passages
that follow each other make one passage, and that is all that is needed to put the parts of a tree
together.
-/

/-- The tokens up to `rest` fit the marks, and the identities from `next` up to `after` were handed out
in the listed order. -/
structure Passage (marks : List Mark) (refs : List RefId) (tokens : List Token) (next : RefId)
    (rest : List Token) (after : RefId) : Prop where
  spelled : ∃ used, tokens = used ++ rest ∧ List.Forall₂ Mark.Fits marks used
  rising : Ascending next refs after

namespace Passage

variable {marks others : List Mark} {refs more : List RefId} {tokens behind rest : List Token}
  {next middle after : RefId} {mark : Mark} {token : Token}

/-- Nothing is read. -/
theorem none : Passage [] [] tokens next tokens next :=
  ⟨⟨[], rfl, .nil⟩, Nat.le_refl next⟩

/-- One token is read. -/
theorem one (fits : mark.Fits token) : Passage [mark] [] (token :: rest) next rest next :=
  ⟨⟨[token], rfl, .cons fits .nil⟩, Nat.le_refl next⟩

/-- Two passages, one behind the other. -/
theorem append (first : Passage marks refs tokens next behind middle)
    (second : Passage others more behind middle rest after) :
    Passage (marks ++ others) (refs ++ more) tokens next rest after := by
  rcases first.spelled with ⟨used, split, fit⟩
  rcases second.spelled with ⟨usedToo, splitToo, fitToo⟩
  refine ⟨⟨used ++ usedToo, ?_, List.rel_append fit fitToo⟩, first.rising.append second.rising⟩
  rw [split, splitToo, List.append_assoc]

/-- One token is read before everything else. -/
theorem cons (fits : mark.Fits token) (passage : Passage marks refs tokens next rest after) :
    Passage (mark :: marks) refs (token :: tokens) next rest after :=
  (one fits).append passage

/-- One token is read behind everything else. -/
theorem concat (passage : Passage marks refs tokens next (token :: rest) after)
    (fits : mark.Fits token) : Passage (marks ++ [mark]) refs tokens next rest after := by
  have passed := passage.append (one fits)
  rwa [List.append_nil] at passed

/-- One more identity is handed out at the end. -/
theorem refer (passage : Passage marks refs tokens next rest after) :
    Passage marks (refs ++ [after]) tokens next rest (after + 1) :=
  ⟨passage.spelled, passage.rising.append ⟨Nat.le_refl after, Nat.le_refl (after + 1)⟩⟩

end Passage

namespace Mark

/-- A symbol fits its mark. -/
theorem fits_symbol (s : Symbol) (line : Nat) : (Mark.symbol s).Fits ⟨.symbol s, line⟩ :=
  ⟨rfl, nofun⟩

/-- A symbol fits its mark on its own line. -/
theorem fits_symbolAt (s : Symbol) (line : Nat) : (Mark.symbolAt s line).Fits ⟨.symbol s, line⟩ :=
  ⟨rfl, fun _ same => Option.some.inj same⟩

/-- A reserved word fits its mark. -/
theorem fits_keyword (k : Keyword) (line : Nat) : (Mark.keyword k).Fits ⟨.keyword k, line⟩ :=
  ⟨rfl, nofun⟩

/-- A reserved word fits its mark on its own line. -/
theorem fits_keywordAt (k : Keyword) (line : Nat) :
    (Mark.keywordAt k line).Fits ⟨.keyword k, line⟩ :=
  ⟨rfl, fun _ same => Option.some.inj same⟩

/-- A name fits its mark on its own line. -/
theorem fits_name (name : String) (line : Nat) :
    (Mark.name ⟨name, line⟩).Fits ⟨.identifier name, line⟩ :=
  ⟨rfl, fun _ same => Option.some.inj same⟩

end Mark

end ScopedScript
