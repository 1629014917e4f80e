/-!
# Operators

The two signs that join the numbers of an expression.
-/

namespace RomanInvoice

/-- A sign between two numbers. -/
inductive Operator where
  | plus
  | minus
  deriving DecidableEq, Repr

namespace Operator

/-- The character that writes an operator. -/
def toChar : Operator → Char
  | plus => '+'
  | minus => '-'

/-- The operator that a character writes. -/
def ofChar? : Char → Option Operator
  | '+' => some plus
  | '-' => some minus
  | _ => none

/-- The result of an operator. -/
def apply : Operator → Int → Int → Int
  | plus, a, b => a + b
  | minus, a, b => a - b

@[simp] theorem ofChar?_toChar (op : Operator) : ofChar? op.toChar = some op := by
  cases op <;> rfl

theorem ofChar?_eq_some_iff {c : Char} {op : Operator} :
    ofChar? c = some op ↔ c = op.toChar := by
  constructor
  · intro h
    unfold ofChar? at h
    split at h <;> simp_all [toChar] <;> subst h <;> rfl
  · rintro rfl
    exact ofChar?_toChar op

end Operator

end RomanInvoice
