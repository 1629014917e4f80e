import RomanInvoice.Text.Utf8
import RomanInvoice.Token.Scan
import RomanInvoice.Token.Total

/-!
# Expressions

What can be asked of an expression: its tokens, its total, and both together as a reckoning. The
limits bound the number of characters, which is looked at first, and the number of tokens, which is
looked at when the whole text has been read.
-/

namespace RomanInvoice

/-- How long an expression may be. -/
structure Limits where
  maxLength : Nat := 5000
  maxTokens : Nat := 2000
  deriving DecidableEq, Repr

/-- An expression as it was given and in normal form, and its total. -/
structure Reckoning where
  source : Text
  normalForm : Text
  total : Int
  deriving DecidableEq, Repr

/-- A reckoning in one line. -/
def Reckoning.display (reckoning : Reckoning) : String :=
  s!"{String.ofList reckoning.normalForm} = {reckoning.total}"

namespace Expression

/-- The tokens of an expression within the limits. -/
def tokens (limits : Limits) (text : Text) : Except Rejection (List Token) :=
  if limits.maxLength < text.length then
    .error (Fault.tooLong text.length limits.maxLength).anywhere
  else do
    let tokens ← Token.scan text
    if tokens = [] then
      .error (Fault.empty.inSpan (.whole text))
    else
      match tokens.drop limits.maxTokens with
      | [] => .ok tokens
      | excess :: _ =>
        .error ((Fault.tooManyTokens tokens.length limits.maxTokens).inSpan
          (excess.span.through (.whole text)))

/-- The total of an expression. -/
def total (limits : Limits) (text : Text) : Except Rejection Int := do
  let tokens ← tokens limits text
  Token.total tokens

/-- The total of an expression given as UTF-8; what is no text is refused before all else. -/
def totalOfBytes (limits : Limits) (bytes : List UInt8) : Except Rejection Int :=
  match Utf8.decode bytes with
  | .ok text => total limits text
  | .error span => .error (Fault.notText.inSpan span)

/-- The reckoning of an expression. -/
def reckon (limits : Limits) (text : Text) : Except Rejection Reckoning := do
  let tokens ← tokens limits text
  let total ← Token.total tokens
  return ⟨text, Token.normalForm tokens, total⟩

end Expression

end RomanInvoice
