/-!
# Amounts

A total is a whole number of 64 bits with a sign. Sums are formed in the integers, and `Amount.Fits`
says whether a sum is still an amount; so nothing wraps round.
-/

namespace RomanInvoice.Amount

/-- The least amount. -/
def least : Int := -0x8000000000000000

/-- The greatest amount. -/
def greatest : Int := 0x7fffffffffffffff

/-- A number that is an amount. -/
def Fits (n : Int) : Prop := least ≤ n ∧ n ≤ greatest

instance (n : Int) : Decidable (Fits n) :=
  inferInstanceAs (Decidable (_ ∧ _))

end RomanInvoice.Amount
