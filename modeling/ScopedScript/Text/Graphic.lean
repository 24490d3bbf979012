import ScopedScript.Text.Graphic.Marks
import ScopedScript.Text.Graphic.Unassigned
namespace ScopedScript

/-!
# Characters that can be seen

A character is graphic when it shows as a sign of its own.  Controls, formats, blanks other than the
space, fillers, marks that attach to the character before them, and code points to which nothing is
assigned or whose use is private are not graphic: set down as they are, they would change what
surrounds them, or would not be seen at all.
-/

namespace Graphic

/-- Control characters. -/
def controls : CodeRanges := [(0x0, 0x1F), (0x7F, 0x9F)]

/-- Spaces other than the common one, and the separators of lines and paragraphs. -/
def blanks : CodeRanges :=
  [(0xA0, 0xA0), (0x1680, 0x1680), (0x2000, 0x200A), (0x2028, 0x2029), (0x202F, 0x202F),
   (0x205F, 0x205F), (0x3000, 0x3000)]

/-- Characters that only steer how others are shown. -/
def formats : CodeRanges :=
  [(0xAD, 0xAD), (0x600, 0x605), (0x61C, 0x61C), (0x6DD, 0x6DD), (0x70F, 0x70F), (0x890, 0x891),
   (0x8E2, 0x8E2), (0x180E, 0x180E), (0x200B, 0x200F), (0x202A, 0x202E), (0x2060, 0x2064),
   (0x2066, 0x206F), (0xFEFF, 0xFEFF), (0xFFF9, 0xFFFB), (0x110BD, 0x110BD), (0x110CD, 0x110CD),
   (0x13430, 0x1343F), (0x1BCA0, 0x1BCA3), (0x1D173, 0x1D17A), (0xE0001, 0xE0001),
   (0xE0020, 0xE007F)]

/-- Letters without a shape, which hold the place of a part of a syllable. -/
def fillers : CodeRanges := [(0x115F, 0x1160), (0x3164, 0x3164), (0xFFA0, 0xFFA0)]

/-- Code points whose meaning is left to private agreement. -/
def privateUse : CodeRanges := [(0xE000, 0xF8FF), (0xF0000, 0xFFFFD), (0x100000, 0x10FFFD)]

/-- Below this code point everything but the controls is graphic. -/
def plainLimit : Nat := 0x7F

end Graphic

/-- Whether a character shows as a sign of its own.  Common text is decided without the tables. -/
def isGraphic (c : Char) : Bool :=
  if c.toNat < Graphic.plainLimit then !Graphic.controls.contains c.toNat
  else
    let sets := [Graphic.controls, Graphic.blanks, Graphic.formats, Graphic.fillers,
      Graphic.privateUse, Graphic.attachingMarks, Graphic.unassigned]
    !sets.any (·.contains c.toNat)

end ScopedScript
