import RomanInvoice.Text.Basic

/-!
# Decimal numerals

A decimal numeral is a run of the digits `0` to `9`. Its value has no bound here, and zeros in front
do not change it.
-/

namespace RomanInvoice.Decimal

/-- The value of a digit. -/
def digitValue (c : Char) : Nat :=
  c.toNat - '0'.toNat

/-- The value of a run of digits. -/
def value (digits : Text) : Nat :=
  digits.foldl (fun n c => 10 * n + digitValue c) 0

end RomanInvoice.Decimal
