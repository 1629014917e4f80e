import RomanInvoice.Rejection
import RomanInvoice.Report.Ink
import RomanInvoice.Report.Line
import RomanInvoice.Text.Utf8

/-!
# Reports

A report shows a source with the label of a rejection drawn under it. If the label lies in one line,
a row of strokes runs below its columns, and from the middle of it a line leads to the message.
Otherwise an arrow joins the first and the last line of the label at their left.

A report can be drawn unless its label ends before it starts; an empty source has no line to draw,
so there the diagnosis is shown as it is.
-/

namespace RomanInvoice

/-- The stretch of a source that a report points at, counted in characters. -/
structure Label where
  start : Nat
  stop : Nat
  deriving DecidableEq, Repr

namespace Label

/-- The characters that begin inside a span; what lies past the end of the source is left out. -/
def ofSpan (source : Text) (span : Span) : Label :=
  ⟨source.charsBefore span.start, source.charsBefore span.stop⟩

/-- Whether a character is labelled. -/
def covers (label : Label) (offset : Nat) : Bool :=
  label.start ≤ offset && offset < label.stop

/-- The line in which a label starts. -/
def firstLine (label : Label) (source : Text) : Line :=
  .holding source label.start

/-- The line of the last character of a label, or of its start if it is empty. -/
def lastLine (label : Label) (source : Text) : Line :=
  .holding source (max (label.stop - 1) label.start)

end Label

namespace Report

/-! ## Left of the source -/

/-- How many columns the numbers of lines take, given the last of them. -/
def numberWidth (number : Nat) : Nat :=
  (toString number).length

/-- The border beside a line, with its number. -/
def numbered (width number : Nat) : Row :=
  let digits := toString number
  let pad := String.ofList (List.replicate (width - digits.length) ' ')
  [.spaces 1, Ink.border.write (pad ++ digits ++ " │"), .spaces 1]

/-- The border beside a row that is no line, drawn with a given stroke. -/
def unnumbered (width : Nat) (stroke : String) : Row :=
  let pad := String.ofList (List.replicate (width + 1) ' ')
  [.spaces 1, Ink.margin.write (pad ++ stroke), .spaces 1]

/-! ## The source -/

/-- What is seen of a line, with the label in its own ink. -/
def lineText (label : Label) (line : Line) : Row :=
  (line.cells.mapIdx fun column cell =>
    let ink := if label.covers (line.start + column) then Ink.label else Ink.source
    List.replicate cell.copies (ink.write cell.glyph.toString)).flatten

/-- A column of a row below the source: one piece first, and others up to its width. -/
def column (first others : Piece) : Nat → Row
  | 0 => []
  | width + 1 => first :: List.replicate width others

/-- A stroke in the ink of the label. -/
def stroke (text : String) : Piece :=
  Ink.label.write text

/-! ## A label in one line -/

/-- The column from which a line leads to the message. -/
def middle (label : Label) (line : Line) : Nat :=
  (label.start + label.stop) / 2 - line.start

/-- The widths of the columns below a line, two past the end of the label. -/
def spannedWidths (label : Label) (line : Line) : List Nat :=
  line.widths (label.stop - line.start + 2)

/-- The strokes below the columns of the label. -/
def underline (label : Label) (line : Line) : Row :=
  ((spannedWidths label line).mapIdx fun k width =>
    if k = middle label line then
      if label.covers (line.start + k) then column (stroke "┬") (stroke "─") width
      else column (stroke "│") (stroke " ") width
    else if label.covers (line.start + k) then column (stroke "─") (stroke "─") width
    else column (.spaces 1) (.spaces 1) width).flatten

/-- The line that leads to the message. -/
def leader (label : Label) (line : Line) : Row :=
  ((spannedWidths label line).mapIdx fun k width =>
    if k = middle label line then column (stroke "╰") (stroke "─") width
    else if middle label line < k then column (stroke "─") (stroke "─") width
    else column (.spaces 1) (.spaces 1) width).flatten

/-- The rows for a label in one line. -/
def singleLine (label : Label) (line : Line) (message : String) : List Row :=
  let width := numberWidth line.number
  [numbered width line.number ++ lineText label line,
    unnumbered width "│" ++ underline label line,
    unnumbered width "│" ++ leader label line ++ [.bare (" " ++ message)]]

/-! ## A label over several lines -/

/-- An arrow to a line, that begins with a given stroke. -/
def arrow (corner : String) : Row :=
  [stroke corner, stroke "─", stroke "▶", stroke " "]

/-- The rows for a label from one line to another. -/
def severalLines (label : Label) (first last : Line) (message : String) : List Row :=
  let width := numberWidth last.number
  let reach := (last.widths (last.text.length + 2)).foldr (· + ·) 0
  let between :=
    if last.number = first.number + 1 then []
    else [unnumbered width "┆" ++ [stroke "┆", .spaces 3]]
  [numbered width first.number ++ arrow "╭" ++ lineText label first] ++
    between ++
    [numbered width last.number ++ arrow "├" ++ lineText label last,
      unnumbered width "│" ++ [stroke "│", .spaces 3, .spaces reach],
      unnumbered width "│" ++ stroke "╰" :: List.replicate (3 + reach) (stroke "─") ++
        [.bare (" " ++ message)]]

/-! ## The whole report -/

/-- The rows above the source: the message, and where the label starts. -/
def header (width : Nat) (diagnosis : Diagnosis) (label : Label) (first : Line) : List Row :=
  let place := s!" <invoice>:{first.number}:{label.start - first.start + 1} "
  [[Ink.heading.write s!"[{diagnosis.code}] Error:", .bare (" " ++ diagnosis.message)],
    [.spaces (width + 2), Ink.border.write "╭", Ink.border.write "─", Ink.border.write "[",
      .bare place, Ink.border.write "]"],
    [.spaces (width + 2), Ink.border.write "│"]]

/-- The rows with the help, if there is any, below a border that goes on as the label does. -/
def advice (width : Nat) (diagnosis : Diagnosis) (edge : Row) : List Row :=
  match diagnosis.help? with
  | none => []
  | some help =>
    let row := unnumbered width "│" ++ edge
    [row, row ++ [Ink.help.write "Help", .bare (": " ++ help)]]

/-- The row that closes the border. -/
def footer (width : Nat) : Row :=
  [Ink.border.write (String.ofList (List.replicate (width + 2) '─') ++ "╯")]

/-- The report on a label of a source. -/
def draw (source : Text) (diagnosis : Diagnosis) (label : Label) : Report :=
  let first := label.firstLine source
  let last := label.lastLine source
  let width := numberWidth last.number
  let body :=
    if first.number = last.number then singleLine label first diagnosis.message
    else severalLines label first last diagnosis.message
  -- The advice has the border of the first line of the source, where a label over several lines is
  -- drawn if it touches that line without starting in it. A label that starts where the line ends
  -- and the next one begins still touches it; one that starts earlier starts in it, and one that
  -- starts later is off it.
  let edge :=
    if first.number = last.number then []
    else if label.start = (Line.holding source 0).text.length then [stroke "│", .spaces 3]
    else [.spaces 4]
  ⟨header width diagnosis label first ++ body ++ advice width diagnosis edge ++ [footer width]⟩

/-- The report of a rejection of a source, if it can be drawn. -/
def ofRejection? (source : Text) (rejection : Rejection) : Option Report :=
  let diagnosis := rejection.diagnosis
  let label := Label.ofSpan source diagnosis.span
  if source = [] then some ⟨[[.bare diagnosis.display]]⟩
  else if label.start ≤ label.stop then some (draw source diagnosis label)
  else none

/-! ## Writing a report -/

/-- The report of a rejection of a source as it is written, if it can be drawn. -/
def render? (style : Style) (source : Text) (rejection : Rejection) : Option String :=
  (ofRejection? source rejection).map (write style)

/-- What a sink of bytes holds behind a report with its colours, if that can be drawn. -/
def renderTo? (sink : List UInt8) (source : Text) (rejection : Rejection) : Option (List UInt8) :=
  (render? .coloured source rejection).map fun text => sink ++ Utf8.encode text.toList

end Report

end RomanInvoice
