import RomanInvoice.Text.Blank
import RomanInvoice.Text.Width

/-!
# Lines of a source

A source is cut after each line end, which stays with the line before it; so the lines together are
the source. Places in a source are counted in characters here. A line is drawn in cells: what is
seen of it ends with its last character that is no blank, and every blank is drawn as spaces, a tab
up to the next multiple of four characters.
-/

namespace RomanInvoice

/-- Whether a character ends a line. -/
def endsLine (c : Char) : Bool :=
  c ∈ ['\n', '\x0b', '\x0c', '\r', '\u0085', '\u2028', '\u2029']

/-- A text cut into lines. A carriage return and a line feed end a line together. -/
def Text.lines : Text → List Text
  | [] => []
  | '\r' :: '\n' :: text => ['\r', '\n'] :: lines text
  | c :: text =>
    if endsLine c then
      [c] :: lines text
    else
      match lines text with
      | [] => [[c]]
      | line :: rest => (c :: line) :: rest

@[simp] theorem Text.flatten_lines (text : Text) : text.lines.flatten = text := by
  fun_induction Text.lines text with
  | case1 => rfl
  | case2 text ih => simp [ih]
  | case3 c text _ _ ih => simp [ih]
  | case4 c text _ _ hnil ih => simpa [hnil] using ih
  | case5 c text _ _ line rest hcons ih => simpa [hcons] using ih

/-- What a character of a line is drawn as, and how many columns that takes. -/
structure Cell where
  glyph : Char
  width : Nat
  deriving DecidableEq, Repr

namespace Cell

/-- The cell of a character that has `column` characters before it. -/
def ofChar (column : Nat) (c : Char) : Cell :=
  if c = '\t' then ⟨' ', 4 - column % 4⟩
  else if isBlank c then ⟨' ', 1⟩
  else ⟨c, charWidth c⟩

/-- How often the glyph is written: a space fills its cell, any other stands there once. -/
def copies (cell : Cell) : Nat :=
  if cell.glyph = ' ' then cell.width else 1

end Cell

/-- A line of a source: its number from one, the offset of its first character, and its text. -/
structure Line where
  number : Nat
  start : Nat
  text : Text
  deriving DecidableEq, Repr

namespace Line

/-- Of lines that begin at `start`, the last one that begins at or before an offset. -/
def search (number start offset : Nat) : List Text → Line
  | [] => ⟨number, start, []⟩
  | [text] => ⟨number, start, text⟩
  | text :: next :: lines =>
    if offset < start + text.length then
      ⟨number, start, text⟩
    else
      search (number + 1) (start + text.length) offset (next :: lines)

/-- The line of a source that an offset is in; the offset after the end is in the last line. -/
def holding (source : Text) (offset : Nat) : Line :=
  search 1 0 offset source.lines

/-- The cells of a line, from its first character to the last one that is seen. -/
def cells (line : Line) : List Cell :=
  line.text.trimEnd.mapIdx Cell.ofChar

/-- The widths of the first columns of a line; past what is seen, each is one. -/
def widths (line : Line) (columns : Nat) : List Nat :=
  let seen := (line.cells.map Cell.width).take columns
  seen ++ List.replicate (columns - seen.length) 1

end Line

end RomanInvoice
