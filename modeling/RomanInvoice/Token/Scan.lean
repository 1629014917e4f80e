import RomanInvoice.Rejection
import RomanInvoice.Text.Blank
import RomanInvoice.Token

/-!
# Reading tokens

Each character is a blank, an operator or a figure of one of the two scripts; any other is illegal.
`scan` gives one token for each operator and for each longest run of figures of one script. It puts
the token of a character before the tokens of the rest, and joins it with the first of them where
both are numerals of one script that touch; so runs come out as long as they can be.
-/

namespace RomanInvoice

/-- What a character is in an expression. -/
inductive Glyph where
  | blank
  | operator (op : Operator)
  /-- A digit or a Roman letter, given by the character that stands for it in a token. -/
  | figure (script : Script) (c : Char)
  deriving DecidableEq, Repr

namespace Glyph

/-- The glyph of a character, if it is legal. -/
def ofChar? (c : Char) : Option Glyph :=
  if isBlank c then some blank
  else if let some op := Operator.ofChar? c then some (operator op)
  else if c.isDigit then some (figure .digits c)
  else (Roman.Letter.ofSpelling? c).map fun letter => figure .roman letter.toChar

/-- The token of a glyph that stands alone. -/
def token? (span : Span) : Glyph → Option Token
  | blank => none
  | operator op => some ⟨.operator op, span⟩
  | figure script c => some ⟨.numeral ⟨script, [c]⟩, span⟩

end Glyph

namespace Token

/-- One token for two numerals of one script, the second of which begins where the first ends. -/
def join? (first second : Token) : Option Token :=
  match first.lexeme, second.lexeme with
  | .numeral a, .numeral b =>
    if first.span.stop = second.span.start ∧ a.script = b.script then
      some ⟨.numeral ⟨a.script, a.text ++ b.text⟩, first.span.through second.span⟩
    else
      none
  | _, _ => none

/-- Puts a token before others, joined with the first of them where the two make one token. -/
def attach (token : Token) : List Token → List Token
  | [] => [token]
  | next :: tokens =>
    match token.join? next with
    | some joined => joined :: tokens
    | none => token :: next :: tokens

/-- The tokens of a text that begins at a byte offset. -/
def scanFrom (start : Nat) : Text → Except Rejection (List Token)
  | [] => .ok []
  | c :: text =>
    let span : Span := ⟨start, start + c.utf8Size⟩
    match Glyph.ofChar? c with
    | none => .error ((Fault.illegalChar c).inSpan span)
    | some glyph => do
      let tokens ← scanFrom span.stop text
      return match glyph.token? span with
        | none => tokens
        | some token => token.attach tokens

/-- The tokens of a text, whatever their number. -/
def scan (text : Text) : Except Rejection (List Token) :=
  scanFrom 0 text

end Token

end RomanInvoice
