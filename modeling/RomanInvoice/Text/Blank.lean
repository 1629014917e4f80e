import RomanInvoice.Text.Basic
import RomanInvoice.Text.CodeRange

/-!
# Blanks

The characters that separate tokens and are otherwise skipped: the property White_Space, which has
stayed as it is since version 6.3 of the Unicode standard.
-/

namespace RomanInvoice

/-- The code points with the property White_Space. -/
def blankRanges : CodeRanges :=
  [(0x9, 0xd), (0x20, 0x20), (0x85, 0x85), (0xa0, 0xa0), (0x1680, 0x1680), (0x2000, 0x200a),
    (0x2028, 0x2029), (0x202f, 0x202f), (0x205f, 0x205f), (0x3000, 0x3000)]

/-- Whether a character is a blank. -/
def isBlank (c : Char) : Bool :=
  blankRanges.holds c

namespace Text

/-- Whether a text holds nothing but blanks. -/
def allBlank (text : Text) : Bool :=
  text.all isBlank

/-- A text without the blanks at its end. -/
def trimEnd : Text → Text
  | [] => []
  | c :: text =>
    match trimEnd text with
    | [] => if isBlank c then [] else [c]
    | kept => c :: kept

end Text

end RomanInvoice
