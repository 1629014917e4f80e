import RomanInvoice.Amount
import RomanInvoice.Fault

/-!
# Roman numerals

A Roman numeral is any run of the seven letters, in any order. It is read from the left: where the
next two letters are one of the six subtractive pairs they count as one sign, and otherwise the next
letter counts alone. No letter is refused for its place, so `IIII` is 4 and `IVX` is 14.
-/

namespace RomanInvoice.Roman

/-- A letter of a Roman numeral. -/
inductive Letter where
  | i
  | v
  | x
  | l
  | c
  | d
  | m
  deriving DecidableEq, Repr

namespace Letter

/-- The number that a letter stands for. -/
def value : Letter → Nat
  | i => 1
  | v => 5
  | x => 10
  | l => 50
  | c => 100
  | d => 500
  | m => 1000

/-- The capital that writes a letter. -/
def toChar : Letter → Char
  | i => 'I'
  | v => 'V'
  | x => 'X'
  | l => 'L'
  | c => 'C'
  | d => 'D'
  | m => 'M'

/-- The letter of which a character is the capital. -/
def ofChar? : Char → Option Letter
  | 'I' => some i
  | 'V' => some v
  | 'X' => some x
  | 'L' => some l
  | 'C' => some c
  | 'D' => some d
  | 'M' => some m
  | _ => none

/-- The letter that a character spells: capitals, small letters and the dotless `ı`. -/
def ofSpelling? : Char → Option Letter
  | 'i' | 'ı' => some i
  | 'v' => some v
  | 'x' => some x
  | 'l' => some l
  | 'c' => some c
  | 'd' => some d
  | 'm' => some m
  | capital => ofChar? capital

@[simp] theorem ofChar?_toChar (a : Letter) : ofChar? a.toChar = some a := by
  cases a <;> rfl

@[simp] theorem ofSpelling?_toChar (a : Letter) : ofSpelling? a.toChar = some a := by
  cases a <;> rfl

end Letter

/-- The value of a subtractive pair: a letter before one five or ten times as great. -/
def pairValue? : Letter → Letter → Option Nat
  | .i, .v => some 4
  | .i, .x => some 9
  | .x, .l => some 40
  | .x, .c => some 90
  | .c, .d => some 400
  | .c, .m => some 900
  | _, _ => none

/-- Whether a character is a capital Roman letter. -/
def isCapital (c : Char) : Bool :=
  (Letter.ofChar? c).isSome

/-- The value of the subtractive pair that two characters write. -/
def pairOf? (c d : Char) : Option Nat := do
  pairValue? (← Letter.ofChar? c) (← Letter.ofChar? d)

/-- The value of a character by itself, which has to be a letter. -/
def letterValue (c : Char) : Except Fault Nat :=
  match Letter.ofChar? c with
  | some a => .ok a.value
  | none => .error (.badRomanLetter c)

/-- One more sign for a sum, which has to stay an amount. -/
def add (sum sign : Nat) : Except Fault Nat :=
  if Amount.Fits (sum + sign : Nat) then .ok (sum + sign) else .error .overflow

/-- Adds the signs of a text to the sum of those before it. -/
def decodeFrom (sum : Nat) : Text → Except Fault Nat
  | [] => .ok sum
  | [c] => do add sum (← letterValue c)
  | c :: d :: text =>
    match pairOf? c d with
    | some pair => do decodeFrom (← add sum pair) text
    | none => do decodeFrom (← add sum (← letterValue c)) (d :: text)

/--
The value of a text of capital Roman letters. The sum is looked at after each sign, so of two faults
the one met first from the left counts.
-/
def decode (text : Text) : Except Fault Nat :=
  decodeFrom 0 text

end RomanInvoice.Roman
