import RomanInvoice.Text.Basic
import RomanInvoice.Text.Quoted

/-!
# Faults

The causes for which an expression is refused. Each has a message, a code and mostly a word of help;
the messages hold no more of the expression than one quoted character or the text of one numeral.
-/

namespace RomanInvoice

/-- Why an expression is refused. -/
inductive Fault where
  /-- The bytes are not UTF-8. -/
  | notText
  /-- There are more characters than the limit. -/
  | tooLong (length maxLength : Nat)
  /-- A character belongs to no token and is no blank. -/
  | illegalChar (c : Char)
  /-- There is no token. -/
  | empty
  /-- There are more tokens than the limit. -/
  | tooManyTokens (count maxTokens : Nat)
  /-- A numeral is written in neither script, or its digits denote no amount. -/
  | badNumeral (text : Text)
  /-- A character is not a Roman letter. -/
  | badRomanLetter (c : Char)
  /-- The first token is an operator. -/
  | leadingOperator
  /-- A number stands where an operator is due. -/
  | operatorExpected (found : Text)
  /-- The last token is an operator. -/
  | trailingOperator
  /-- An operator follows an operator. -/
  | doubledOperator
  /-- A sum is not an amount. -/
  | overflow
  deriving DecidableEq, Repr

namespace Fault

/-- What is said of a fault. -/
def message : Fault → String
  | notText => "Expression must be a string"
  | tooLong length maxLength =>
    s!"Expression too long: {length} characters exceeds maximum of {maxLength}"
  | illegalChar c => "Illegal character in expression: " ++ quoteChar c
  | empty => "Empty expression"
  | tooManyTokens count maxTokens =>
    s!"Too many tokens: {count} exceeds maximum of {maxTokens}"
  | badNumeral text => "Invalid number token: " ++ String.ofList text
  | badRomanLetter c => "Invalid Roman numeral character: " ++ c.toString
  | leadingOperator => "Expression cannot start with an operator"
  | operatorExpected found => "Expected operator, found " ++ String.ofList found
  | trailingOperator => "Expression cannot end with an operator"
  | doubledOperator => "Two operators in a row"
  | overflow => "Arithmetic overflow while computing the total"

/-- The code under which a fault is listed. -/
def code : Fault → String
  | notText => "F001"
  | tooLong .. => "F002"
  | illegalChar _ => "F003"
  | empty => "F004"
  | tooManyTokens .. => "F005"
  | badNumeral _ => "F006"
  | badRomanLetter _ => "F007"
  | leadingOperator => "F008"
  | operatorExpected _ => "F009"
  | trailingOperator => "F010"
  | doubledOperator => "F011"
  | overflow => "F012"

/-- How to mend an expression with a fault, where there is something to say. -/
def help? : Fault → Option String
  | notText => some "Pass the expression as UTF-8 text"
  | tooLong .. | tooManyTokens .. => some "Split the invoice into smaller expressions"
  | illegalChar _ =>
    some "Only digits, Roman numerals (IVXLCDM), '+', '-' and spaces are allowed"
  | empty => some "Provide at least one number"
  | operatorExpected _ => some "Separate numbers with '+' or '-'"
  | leadingOperator | trailingOperator | doubledOperator =>
    some "Write expressions as: number ((+|-) number)*"
  | badNumeral _ | badRomanLetter _ | overflow => none

end Fault

end RomanInvoice
