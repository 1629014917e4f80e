import RomanInvoice.Expression

/-!
# Options of the command

The arguments are read from the left, and the first one that cannot be accepted decides how the
command ends. Two switches and two settings may each be given once, in any order and on either side
of the expression; after `--` every argument is an expression, and there may be only one.
-/

namespace RomanInvoice.Command

/-- An option without a value. -/
inductive Switch where
  /-- Show the normal form with the total. -/
  | normalized
  /-- Show the tokens first. -/
  | debugTokens
  deriving DecidableEq, Repr

/-- An option with a value. -/
inductive Setting where
  | maxLength
  | maxTokens
  deriving DecidableEq, Repr

/-- How the command ends when there is nothing to run. -/
inductive Ending where
  /-- The help was asked for. -/
  | help
  /-- The arguments are wrong. -/
  | usage
  deriving DecidableEq, Repr

/-! ## Single arguments -/

/-- What an argument is by its form. -/
inductive Argument where
  /-- The end of the options. -/
  | endOfOptions
  | help
  | switch (switch : Switch)
  /-- A setting, with its value if that is in the same argument. -/
  | setting (setting : Setting) (value? : Option Text)
  | operand (text : Text)
  | unknown
  deriving DecidableEq, Repr

namespace Argument

/-- An argument after its two dashes: a name, or a name with a value after an equals sign. -/
def ofLong (text : Text) : Argument :=
  let name := String.ofList (text.takeWhile (· ≠ '='))
  match name, text.dropWhile (· ≠ '=') with
  | "help", [] => help
  | "normalized", [] => switch .normalized
  | "debug-tokens", [] => switch .debugTokens
  | "max-length", [] => setting .maxLength none
  | "max-tokens", [] => setting .maxTokens none
  | "max-length", _ :: value => setting .maxLength (some value)
  | "max-tokens", _ :: value => setting .maxTokens (some value)
  | _, _ => unknown

/-- An argument by its form; a lone dash is no option. -/
def ofText : Text → Argument
  | ['-', '-'] => endOfOptions
  | '-' :: '-' :: text => ofLong text
  | '-' :: 'h' :: _ => help
  | '-' :: _ :: _ => unknown
  | text => operand text

end Argument

/-- The number of a setting: digits after at most one plus, from 1 to the greatest of 64 bits. -/
def limit? (text : Text) : Option Nat :=
  let digits := match text with
    | '+' :: digits => digits
    | digits => digits
  let n := Decimal.value digits
  if digits ≠ [] ∧ digits.all Char.isDigit ∧ 0 < n ∧ n < UInt64.size then some n else none

/-! ## All arguments -/

/-- What the arguments ask for. -/
structure Options where
  normalized : Bool := false
  debugTokens : Bool := false
  maxLength? : Option Nat := none
  maxTokens? : Option Nat := none
  expression? : Option Text := none
  deriving DecidableEq, Repr

namespace Options

/-- The limits that are asked for. -/
def limits (options : Options) : Limits :=
  let standard : Limits := {}
  ⟨options.maxLength?.getD standard.maxLength, options.maxTokens?.getD standard.maxTokens⟩

/-- Turns a switch on, unless it is on. -/
def turnOn (options : Options) : Switch → Except Ending Options
  | .normalized =>
    if options.normalized then .error .usage else .ok { options with normalized := true }
  | .debugTokens =>
    if options.debugTokens then .error .usage else .ok { options with debugTokens := true }

/-- Gives a setting its value, unless it has one. -/
def assign (options : Options) (setting : Setting) (value : Text) : Except Ending Options :=
  match limit? value, setting, options.maxLength?, options.maxTokens? with
  | some n, .maxLength, none, _ => .ok { options with maxLength? := some n }
  | some n, .maxTokens, _, none => .ok { options with maxTokens? := some n }
  | _, _, _, _ => .error .usage

/-- Takes an expression, unless there is one. -/
def takeExpression (options : Options) (text : Text) : Except Ending Options :=
  match options.expression? with
  | none => .ok { options with expression? := some text }
  | some _ => .error .usage

/-- Adds what further arguments ask for. -/
def addArguments (options : Options) : List Text → Except Ending Options
  | [] => .ok options
  | argument :: arguments =>
    match Argument.ofText argument with
    | .endOfOptions => arguments.foldlM takeExpression options
    | .help => .error .help
    | .unknown => .error .usage
    | .operand text => do addArguments (← options.takeExpression text) arguments
    | .switch switch => do addArguments (← options.turnOn switch) arguments
    | .setting setting (some value) => do
      addArguments (← options.assign setting value) arguments
    | .setting setting none =>
      match arguments with
      | [] => .error .usage
      | value :: arguments => do addArguments (← options.assign setting value) arguments

/-- What the arguments of a command ask for. -/
def ofArguments (arguments : List Text) : Except Ending Options :=
  addArguments {} arguments

end Options

end RomanInvoice.Command
