import RomanInvoice.Token

/-!
# Output of the command

What a run writes to its two streams, and whether it failed. Runs are put together in order: their
texts one after the other, with a failure if one of them failed.
-/

namespace RomanInvoice.Command

/-- What a run leaves behind. -/
structure Output where
  stdout : String := ""
  stderr : String := ""
  failed : Bool := false
  deriving DecidableEq, Repr

namespace Output

instance : Append Output where
  append a b := ⟨a.stdout ++ b.stdout, a.stderr ++ b.stderr, a.failed || b.failed⟩

theorem append_def (a b : Output) :
    a ++ b = ⟨a.stdout ++ b.stdout, a.stderr ++ b.stderr, a.failed || b.failed⟩ := rfl

@[simp] theorem empty_append (a : Output) : ({} : Output) ++ a = a := by
  simp [append_def]

@[simp] theorem append_empty (a : Output) : a ++ ({} : Output) = a := by
  simp [append_def]

theorem append_assoc (a b c : Output) : a ++ b ++ c = a ++ (b ++ c) := by
  simp [append_def, String.append_assoc, Bool.or_assoc]

/-- The status with which the command exits. -/
def status (output : Output) : Nat :=
  if output.failed then 1 else 0

end Output

/-! ## Tokens -/

/-- The name of a script in a list of tokens. -/
def scriptName : Script → String
  | .digits => "Digits"
  | .roman => "Roman"

/-- A lexeme in a list of tokens. -/
def lexemeLine : Lexeme → String
  | .operator .plus => "Operator(Add)"
  | .operator .minus => "Operator(Sub)"
  | .numeral n =>
    "Number(NumberText \x7b text: \"" ++ String.ofList n.text ++ "\", kind: " ++
      scriptName n.script ++ " \x7d)"

/-- A token in a list of tokens. -/
def tokenLine (token : Token) : String :=
  "Token \x7b kind: " ++ lexemeLine token.lexeme ++
    s!", span: Span({token.span.start}..{token.span.stop})" ++ " \x7d\n"

/-- A list of tokens with its heading, closed by an empty line. -/
def tokenBlock (tokens : List Token) : String :=
  "=== Tokens ===\n" ++ String.join (tokens.map tokenLine) ++ "\n"

end RomanInvoice.Command
