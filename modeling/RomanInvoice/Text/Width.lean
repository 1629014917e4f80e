import RomanInvoice.Text.Extender
import RomanInvoice.Text.Ignorable
import RomanInvoice.Text.Wide

/-!
# Terminal width

How many columns of a terminal a character takes: none if it is drawn onto a character beside it or
not at all, two if it is wide, and one otherwise. Control characters count one column. Widths go by
version 18.0 of the Unicode standard, while what a quoted character looks like goes by version 17.0.
-/

namespace RomanInvoice

/-- The vowels and final consonants that are drawn into a Korean syllable begun before. -/
def jamoRanges : CodeRanges :=
  [(0x1160, 0x11ff), (0xd7b0, 0xd7c6), (0xd7cb, 0xd7fb)]

/-- Signs drawn onto the character after them, and the caret, which is drawn between two. -/
def attachedRanges : CodeRanges :=
  [(0x605, 0x605), (0x70f, 0x70f), (0x890, 0x891), (0x8e2, 0x8e2), (0xd4e, 0xd4e),
    (0xa8fa, 0xa8fa), (0x111c2, 0x111c3), (0x113d1, 0x113d1), (0x1193f, 0x1193f),
    (0x11941, 0x11941), (0x11a84, 0x11a89), (0x11d46, 0x11d46), (0x11f02, 0x11f02)]

/-- Signs of the classes above that take columns of their own: a filler and a joiner. -/
def standingRanges : CodeRanges :=
  [(0x115f, 0x115f), (0x2d7f, 0x2d7f)]

/-- Whether a character takes no column. -/
def isZeroWidth (c : Char) : Bool :=
  (ignorableRanges.holds c || extenderRanges.holds c || jamoRanges.holds c ||
    attachedRanges.holds c) && !standingRanges.holds c

/-- The number of columns that a character takes. Two Khmer signs are written as several letters. -/
def charWidth (c : Char) : Nat :=
  if c.toNat < 0xa0 then 1
  else if isZeroWidth c then 0
  else if c = '\u17d8' then 3
  else if c = '\u17a4' || wideRanges.holds c then 2
  else 1

end RomanInvoice
