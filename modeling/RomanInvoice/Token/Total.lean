import RomanInvoice.Rejection
import RomanInvoice.Token

/-!
# The total of tokens

Numbers and operators have to alternate, with a number at both ends. The sum is formed from the left
while the tokens are read, so the first token that does not fit in, cannot be valued or leads out of
the amounts is the one to blame.
-/

namespace RomanInvoice

/-- The value of a numeral that stands in a span, which is blamed if it has none. -/
def Numeral.decodeIn (numeral : Numeral) (span : Span) : Except Rejection Nat :=
  numeral.decode.mapError fun fault => fault.anywhere.placedIn span

namespace Token

/-- Adds what follows to the sum of what came before. -/
def totalFrom (sum : Int) : List Token → Except Rejection Int
  | [] => .ok sum
  | ⟨.numeral numeral, span⟩ :: _ => .error ((Fault.operatorExpected numeral.text).inSpan span)
  | [⟨.operator _, span⟩] => .error (Fault.trailingOperator.inSpan span)
  | ⟨.operator _, _⟩ :: ⟨.operator _, span⟩ :: _ => .error (Fault.doubledOperator.inSpan span)
  | ⟨.operator op, opSpan⟩ :: ⟨.numeral numeral, span⟩ :: tokens => do
    let value ← numeral.decodeIn span
    if Amount.Fits (op.apply sum value) then
      totalFrom (op.apply sum value) tokens
    else
      .error (Fault.overflow.inSpan (opSpan.through span))

/-- The total of an expression given as tokens. -/
def total : List Token → Except Rejection Int
  | [] => .error Fault.empty.anywhere
  | ⟨.operator _, span⟩ :: _ => .error (Fault.leadingOperator.inSpan span)
  | ⟨.numeral numeral, span⟩ :: tokens => do
    let value ← numeral.decodeIn span
    totalFrom value tokens

end Token

end RomanInvoice
