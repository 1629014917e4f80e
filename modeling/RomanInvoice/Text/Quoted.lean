import RomanInvoice.Text.Unprinted
import RomanInvoice.Text.Extender
import RomanInvoice.Text.Ignorable

/-!
# Quoted characters

A character is shown between single quotes. What a reader could not make out there is written as an
escape: the usual short ones, and `\u` with the code point in hexadecimal between braces for every
other character without a visible form of its own.
-/

namespace RomanInvoice

/-- Whether a character has a form of its own on the page. -/
def isShown (c : Char) : Bool :=
  !(unprintedRanges.holds c || extenderRanges.holds c || ignorableRanges.holds c)

/-- A number in hexadecimal, in lower case and without leading zeros. -/
def hexadecimal (n : Nat) : String :=
  String.ofList (Nat.toDigits 16 n)

/-- The written form of a character inside quotes. -/
def escapeChar (c : Char) : String :=
  match c with
  | '\x00' => "\\0"
  | '\t' => "\\t"
  | '\n' => "\\n"
  | '\r' => "\\r"
  | '\'' => "\\'"
  | '\\' => "\\\\"
  | _ => if isShown c then c.toString else "\\u\x7b" ++ hexadecimal c.toNat ++ "\x7d"

/-- A character between single quotes. -/
def quoteChar (c : Char) : String :=
  "'" ++ escapeChar c ++ "'"

end RomanInvoice
