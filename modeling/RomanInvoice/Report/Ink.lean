/-!
# Inks

A report is made of rows, and a row of pieces of text, each in an ink or in none. `plain` writes the
texts alone; `coloured` writes the same pieces and puts each inked one between two escape sequences,
which set the colour of a terminal and set it back. Which of the two is done is the style.
-/

namespace RomanInvoice

/-- What is drawn in one colour. -/
inductive Ink where
  /-- The line that names the fault. -/
  | heading
  /-- The border and the numbers of lines. -/
  | border
  /-- The border beside rows that are no line of the source. -/
  | margin
  /-- What the source holds outside the label. -/
  | source
  /-- The label, and the lines that lead from it to the message. -/
  | label
  /-- The word of help. -/
  | help
  deriving DecidableEq, Repr

/-- The number of a colour, in the terms of a terminal. -/
def Ink.colour : Ink → String
  | heading => "31"
  | border => "38;5;246"
  | margin => "38;5;240"
  | source => "38;5;249"
  | label => "38;5;155"
  | help => "38;5;115"

/-- A text in an ink or in none. -/
structure Piece where
  ink? : Option Ink
  text : String
  deriving DecidableEq, Repr

/-- A text in an ink. -/
def Ink.write (ink : Ink) (text : String) : Piece :=
  ⟨some ink, text⟩

namespace Piece

/-- A text in no ink. -/
def bare (text : String) : Piece :=
  ⟨none, text⟩

/-- A number of spaces in no ink. -/
def spaces (n : Nat) : Piece :=
  bare (String.ofList (List.replicate n ' '))

/-- A piece with its colour. -/
def coloured (piece : Piece) : String :=
  match piece.ink? with
  | none => piece.text
  | some ink => "\x1b[" ++ ink.colour ++ "m" ++ piece.text ++ "\x1b[0m"

end Piece

/-- The pieces of a line of a report. -/
abbrev Row := List Piece

namespace Row

/-- A row without colours, and the end of its line. -/
def plain (row : Row) : String :=
  String.join (row.map Piece.text) ++ "\n"

/-- A row with its colours, and the end of its line. -/
def coloured (row : Row) : String :=
  String.join (row.map Piece.coloured) ++ "\n"

end Row

/-- What is drawn to show where a fault lies. -/
structure Report where
  rows : List Row
  deriving DecidableEq, Repr

namespace Report

/-- A report without colours. -/
def plain (report : Report) : String :=
  String.join (report.rows.map Row.plain)

/-- A report with its colours. -/
def coloured (report : Report) : String :=
  String.join (report.rows.map Row.coloured)

end Report

/-! ## Styles -/

/-- Whether colours are written. -/
inductive Style where
  | plain
  | coloured
  deriving DecidableEq, Repr

/-- A piece in a style. -/
def Piece.write (style : Style) (piece : Piece) : String :=
  match style with
  | .plain => piece.text
  | .coloured => piece.coloured

/-- A row in a style. -/
def Row.write (style : Style) (row : Row) : String :=
  match style with
  | .plain => row.plain
  | .coloured => row.coloured

/-- A report in a style. -/
def Report.write (style : Style) (report : Report) : String :=
  match style with
  | .plain => report.plain
  | .coloured => report.coloured

end RomanInvoice
