import RomanInvoice.Fault
import RomanInvoice.Text.Span

/-!
# Rejections

A rejection is a fault with the span of the expression to blame, where there is one. A diagnosis is
what a reader is told of it: all its texts, and a span in any case.
-/

namespace RomanInvoice

/-- A fault and where it lies. -/
structure Rejection where
  fault : Fault
  span? : Option Span
  deriving DecidableEq, Repr

/-- A rejection without a place. -/
def Fault.anywhere (fault : Fault) : Rejection :=
  ⟨fault, none⟩

/-- A rejection of what stands in a span. -/
def Fault.inSpan (fault : Fault) (span : Span) : Rejection :=
  ⟨fault, some span⟩

/-- What a reader is told of a rejection. -/
structure Diagnosis where
  message : String
  code : String
  help? : Option String
  span : Span
  deriving DecidableEq, Repr

namespace Diagnosis

/-- A diagnosis in one line, and its help in another. -/
def display (diagnosis : Diagnosis) : String :=
  s!"error: {diagnosis.message} [{diagnosis.code}]" ++
    match diagnosis.help? with
    | none => ""
    | some help => "\nhelp: " ++ help

end Diagnosis

namespace Rejection

/-- Places a rejection in a span, unless it has one already. -/
def placedIn (rejection : Rejection) (span : Span) : Rejection :=
  { rejection with span? := some (rejection.span?.getD span) }

/-- A rejection in one line. -/
def display (rejection : Rejection) : String :=
  "invoice format error: " ++ rejection.fault.message

/-- What a reader is told; a rejection without a place is shown at the very beginning. -/
def diagnosis (rejection : Rejection) : Diagnosis where
  message := rejection.fault.message
  code := rejection.fault.code
  help? := rejection.fault.help?
  span := rejection.span?.getD ⟨0, 0⟩

end Rejection

end RomanInvoice
