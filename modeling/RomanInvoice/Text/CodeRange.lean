/-!
# Code ranges

A property of characters is written as the runs of code points that have it. The runs of a table
stand in increasing order, so a look-up stops at the first run that begins past the character.
-/

namespace RomanInvoice

/-- Runs of code points in increasing order, each given by its first and its last. -/
abbrev CodeRanges := List (Nat × Nat)

namespace CodeRanges

/-- Whether a code point lies in one of the runs. -/
def covers : CodeRanges → Nat → Bool
  | [], _ => false
  | (first, last) :: ranges, n => first ≤ n && (n ≤ last || covers ranges n)

/-- Whether the code point of a character lies in one of the runs. -/
def holds (ranges : CodeRanges) (c : Char) : Bool :=
  ranges.covers c.toNat

end CodeRanges

end RomanInvoice
