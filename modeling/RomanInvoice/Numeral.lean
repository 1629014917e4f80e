import RomanInvoice.Numeral.Decimal
import RomanInvoice.Numeral.Roman

/-!
# Numerals

The numbers of an expression are written in one of two scripts. What a numeral is worth depends on
its text alone.
-/

namespace RomanInvoice

/-- The two ways of writing numbers. -/
inductive Script where
  | digits
  | roman
  deriving DecidableEq, Repr

/-- A written number. -/
structure Numeral where
  script : Script
  text : Text
  deriving DecidableEq, Repr

namespace Numeral

/-- The value of a numeral: digits that denote an amount, or Roman capitals. -/
def decode (numeral : Numeral) : Except Fault Nat :=
  if numeral.text = [] then
    .error (.badNumeral numeral.text)
  else if numeral.text.all Char.isDigit then
    if Amount.Fits (Decimal.value numeral.text) then
      .ok (Decimal.value numeral.text)
    else
      .error (.badNumeral numeral.text)
  else if numeral.text.all Roman.isCapital then
    Roman.decode numeral.text
  else
    .error (.badNumeral numeral.text)

end Numeral

end RomanInvoice
