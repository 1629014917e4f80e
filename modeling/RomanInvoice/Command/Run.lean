import RomanInvoice.Command.Options
import RomanInvoice.Command.Output
import RomanInvoice.Report

/-!
# Running the command

With an expression among its arguments the command reckons that one. Otherwise it reckons every line
of its input that is not blank, one after the other; a line that is no text ends the run.
-/

namespace RomanInvoice.Command

/-! ## Lines of the input -/

/-- The lines of an input without their ends: a line feed, or a carriage return and a line feed. -/
def inputLines : List UInt8 → List (List UInt8)
  | [] => []
  | 0x0a :: bytes => [] :: inputLines bytes
  | 0x0d :: 0x0a :: bytes => [] :: inputLines bytes
  | b :: bytes =>
    match inputLines bytes with
    | [] => [[b]]
    | line :: lines => (b :: line) :: lines

/-- What is written of an input that is no text. -/
def inputFailure : String :=
  "Error: invoice_calc::stdin\n\n  × failed to read expression from stdin\n" ++
    "  ╰─▶ stream did not contain valid UTF-8\n\n"

/-! ## Runs -/

namespace Options

/-- The list of the tokens, if it is asked for and there are tokens. -/
def listTokens (options : Options) (text : Text) : Output :=
  match options.debugTokens, Expression.tokens options.limits text with
  | true, .ok tokens => { stdout := tokenBlock tokens }
  | _, _ => {}

/-- The total of an expression, or the report on it. -/
def answer (options : Options) (text : Text) : Output :=
  match Expression.reckon options.limits text with
  | .ok reckoning =>
    let line := if options.normalized then reckoning.display else toString reckoning.total
    { stdout := line ++ "\n" }
  | .error rejection =>
    { stderr := ((Report.ofRejection? text rejection).map Report.coloured).getD "", failed := true }

/-- Runs one expression. -/
def runExpression (options : Options) (text : Text) : Output :=
  options.listTokens text ++ options.answer text

/-- Runs lines after a run that left `before` behind. -/
def runLinesAfter (options : Options) (before : Output) : List (List UInt8) → Output
  | [] => before
  | line :: lines =>
    match Utf8.decode line with
    | .error _ => before ++ { stderr := inputFailure, failed := true }
    | .ok text =>
      if text.allBlank then runLinesAfter options before lines
      else runLinesAfter options (before ++ options.runExpression text) lines

theorem runLinesAfter_append (options : Options) (a b : Output) (lines : List (List UInt8)) :
    options.runLinesAfter (a ++ b) lines = a ++ options.runLinesAfter b lines := by
  induction lines generalizing b with
  | nil => rfl
  | cons line lines ih =>
    rw [runLinesAfter, runLinesAfter]
    split
    · rw [Output.append_assoc]
    · split
      · exact ih b
      · rw [Output.append_assoc, ih]

/-- Runs the lines of an input. -/
def runLines (options : Options) (lines : List (List UInt8)) : Output :=
  options.runLinesAfter {} lines

@[simp] theorem runLines_nil (options : Options) : options.runLines [] = {} := rfl

theorem runLines_cons (options : Options) (line : List UInt8) (lines : List (List UInt8)) :
    options.runLines (line :: lines) =
      match Utf8.decode line with
      | .error _ => { stderr := inputFailure, failed := true }
      | .ok text =>
        if text.allBlank then options.runLines lines
        else options.runExpression text ++ options.runLines lines := by
  rw [runLines, runLinesAfter]
  split
  · simp
  · split
    · rfl
    · rw [runLines, ← runLinesAfter_append]
      simp

/-- Runs what the options ask for. -/
def run (options : Options) (input : List UInt8) : Output :=
  match options.expression? with
  | some text => options.runExpression text
  | none => options.runLines (inputLines input)

end Options

/-- Runs the command. -/
def run (arguments : List Text) (input : List UInt8) : Except Ending Output := do
  let options ← Options.ofArguments arguments
  return options.run input

end RomanInvoice.Command
