import RomanInvoice.Proofs.Blank
import RomanInvoice.Proofs.Report.Place

/-!
# Underlines — what stands below a label

`Text.columnWidth` says how wide a column of a line is, from the characters of the line alone. The
row below a line is made of three parts: spaces as wide as the columns before the label, a block of
strokes as wide as the columns of the label, and spaces again (`Report.exists_written_underline`).
The line itself is the one that the label starts in.
-/

namespace RomanInvoice

/-! ## Columns -/

namespace Text

/-- How wide a column of a line is: a tab goes on to the next multiple of four characters, and
behind the last character that is no blank every column is one wide. -/
def columnWidth (line : Text) (k : Nat) : Nat :=
  match line.drop k with
  | [] => 1
  | c :: rest =>
    if allBlank (c :: rest) then 1
    else if c = '\t' then 4 - k % 4
    else if isBlank c then 1
    else charWidth c

/-- How wide some columns of a line are together. -/
def columnsWidth (line : Text) (first count : Nat) : Nat :=
  ((List.range' first count).map line.columnWidth).sum

theorem columnsWidth_add (line : Text) (first m n : Nat) :
    line.columnsWidth first (m + n) =
      line.columnsWidth first m + line.columnsWidth (first + m) n := by
  rw [columnsWidth, ← List.range'_append_1, List.map_append, List.sum_append]
  rfl

theorem columnsWidth_one (line : Text) (k : Nat) : line.columnsWidth k 1 = line.columnWidth k := by
  rw [columnsWidth, List.range'_one, List.map_singleton, List.sum_singleton]

/-- One character over the whole width of some columns. -/
theorem flatMap_columns {line : Text} {first count : Nat} {c : Char} {f : Nat → Text}
    (h : ∀ k, first ≤ k → k < first + count → f k = List.replicate (line.columnWidth k) c) :
    (List.range' first count).flatMap f = List.replicate (line.columnsWidth first count) c := by
  induction count generalizing first with
  | zero => rfl
  | succ count ih =>
    have hrest : (List.range' (first + 1) count).flatMap f =
        List.replicate (line.columnsWidth (first + 1) count) c :=
      ih fun k hle hlt => h k (by omega) (by omega)
    rw [List.range'_succ, List.flatMap_cons, h first (Nat.le_refl _) (by omega), hrest,
      List.replicate_append_replicate, Nat.add_comm count, columnsWidth_add, columnsWidth_one]

/-- A character is kept unless from it on there are only blanks. -/
theorem getElem?_trimEnd (text : Text) (k : Nat) :
    text.trimEnd[k]? = if allBlank (text.drop k) then none else (text.drop k).head? := by
  induction text generalizing k with
  | nil => simp [trimEnd]
  | cons c text ih =>
    have hnil : trimEnd text = [] ↔ allBlank text := by
      rw [trimEnd_eq_nil_iff, allBlank, List.all_eq_true]
    cases k with
    | zero =>
      have hcons : allBlank (c :: text) = (isBlank c && allBlank text) := rfl
      rw [trimEnd, List.drop_zero, hcons]
      split
      · next htrim =>
        rw [hnil.1 htrim]
        cases isBlank c <;> rfl
      · next htrim =>
        rw [Bool.eq_false_iff.2 (mt hnil.2 htrim), Bool.and_false]
        rfl
    | succ k =>
      rw [trimEnd, List.drop_succ_cons, ← ih]
      split
      · next htrim =>
        rw [htrim]
        split <;> rfl
      · rfl

end Text

theorem Cell.width_ofChar (k : Nat) (c : Char) :
    (ofChar k c).width = if c = '\t' then 4 - k % 4 else if isBlank c then 1 else charWidth c := by
  unfold ofChar
  split
  · rfl
  · split <;> rfl

theorem Line.widths_eq (line : Line) (columns : Nat) :
    line.widths columns = (List.range columns).map line.text.columnWidth := by
  have hcell (k : Nat) : line.text.columnWidth k =
      ((line.cells.map Cell.width)[k]?).getD 1 := by
    rw [cells, List.getElem?_map, List.getElem?_mapIdx, Text.getElem?_trimEnd, Text.columnWidth]
    cases line.text.drop k with
    | nil => rfl
    | cons c rest =>
      dsimp only
      split
      · rfl
      · exact (Cell.width_ofChar k c).symm
  refine List.ext_getElem? fun k => ?_
  rw [widths, List.getElem?_map]
  generalize line.cells.map Cell.width = seen at hcell
  rcases Nat.lt_or_ge k columns with hk | hk
  · rw [List.getElem?_range hk, Option.map_some, hcell]
    rcases Nat.lt_or_ge k seen.length with hseen | hseen <;> simp [hk, hseen]
  · simp [hk]

/-! ## The row below a line -/

namespace Report

/-- A block of strokes of a given width, one of which may have a line below it. -/
structure StrokeBlock (block : Text) (width : Nat) : Prop where
  stroke : ∀ c ∈ block, c = '─' ∨ c = '┬'
  count_le : block.count '┬' ≤ 1
  length_eq : block.length = width

/-- The strokes below the middle of a label; a column without a width has none. -/
def branch : Nat → Text
  | 0 => []
  | width + 1 => '┬' :: List.replicate width '─'

/-- Strokes before and behind the middle do not branch. -/
theorem strokeBlock_branch (before width after : Nat) :
    StrokeBlock (List.replicate before '─' ++ branch width ++ List.replicate after '─')
      (before + width + after) := by
  have hplain (n : Nat) : ∀ c ∈ List.replicate n '─', c = '─' ∨ c = '┬' :=
    fun c hc => .inl (List.eq_of_mem_replicate hc)
  have hbranch : StrokeBlock (branch width) width := by
    cases width with
    | zero => exact ⟨List.forall_mem_nil _, Nat.zero_le 1, rfl⟩
    | succ width =>
      refine ⟨List.forall_mem_cons.2 ⟨.inr rfl, hplain width⟩, ?_, ?_⟩
      · simp [branch, List.count_replicate]
      · simp [branch]
  refine ⟨?_, ?_, ?_⟩
  · exact List.forall_mem_append.2
      ⟨List.forall_mem_append.2 ⟨hplain before, hbranch.stroke⟩, hplain after⟩
  · simpa [List.count_replicate] using hbranch.count_le
  · simp [hbranch.length_eq, Nat.add_assoc]

theorem written_replicate {piece : Piece} {c : Char} (h : piece.text.toList = [c]) (n : Nat) :
    written .plain (List.replicate n piece) = List.replicate n c := by
  rw [written, List.flatMap_replicate, show (piece.write .plain).toList = [c] from h,
    List.flatten_replicate_singleton]

theorem written_column {piece : Piece} {c : Char} (h : piece.text.toList = [c]) (width : Nat) :
    written .plain (column piece piece width) = List.replicate width c := by
  cases width with
  | zero => rfl
  | succ width => exact written_replicate h (width + 1)

theorem written_branch (width : Nat) :
    written .plain (column (Report.stroke "┬") (Report.stroke "─") width) = branch width := by
  cases width with
  | zero => rfl
  | succ width => exact congrArg ('┬' :: ·) (written_replicate rfl width)

variable {label : Label} {line : Line}

theorem written_flatten_mapIdx (line : Line) (columns : Nat) (f : Nat → Nat → Row) :
    written .plain ((line.widths columns).mapIdx f).flatten =
      (List.range columns).flatMap fun k => written .plain (f k (line.text.columnWidth k)) := by
  have hmap : (line.widths columns).mapIdx f =
      (List.range columns).map fun k => f k (line.text.columnWidth k) := by
    rw [Line.widths_eq]
    exact List.ext_getElem (by simp) (by simp)
  rw [hmap, ← List.flatMap_def, written, List.flatMap_assoc]
  rfl

/-- What stands below a column of the line that a label lies in. -/
def below (label : Label) (line : Line) (k : Nat) : Text :=
  if k = middle label line then branch (line.text.columnWidth k)
  else if label.covers (line.start + k) then List.replicate (line.text.columnWidth k) '─'
  else List.replicate (line.text.columnWidth k) ' '

section Below

variable {column count : Nat}

/-- The middle of a label that is not empty is labelled, so the line below it branches off there. -/
theorem covers_middle (hstart : label.start = line.start + column)
    (hstop : label.stop = label.start + count) (hcount : 0 < count) :
    label.covers (line.start + middle label line) := by
  rw [Label.covers_iff, middle]
  omega

theorem below_of_covers {k : Nat} (hk : k ≠ middle label line)
    (hcovers : label.start ≤ line.start + k ∧ line.start + k < label.stop) :
    below label line k = List.replicate (line.text.columnWidth k) '─' := by
  rw [below, if_neg hk, if_pos (Label.covers_iff.2 hcovers)]

theorem below_of_not_covers {k : Nat} (hk : k ≠ middle label line)
    (hcovers : ¬ (label.start ≤ line.start + k ∧ line.start + k < label.stop)) :
    below label line k = List.replicate (line.text.columnWidth k) ' ' := by
  rw [below, if_neg hk, if_neg (mt Label.covers_iff.1 hcovers)]

theorem written_underline (hstart : label.start = line.start + column)
    (hstop : label.stop = label.start + count) (hcount : 0 < count) :
    written .plain (underline label line) =
      (List.range' 0 (column + count + 2)).flatMap (below label line) := by
  have hcolumns : label.stop - line.start + 2 = column + count + 2 := by omega
  rw [underline, spannedWidths, written_flatten_mapIdx, hcolumns, List.range_eq_range']
  congr 1
  funext k
  unfold below
  split
  · next hk =>
    rw [hk, if_pos (covers_middle hstart hstop hcount), written_branch]
  · split
    · exact written_column rfl _
    · exact written_column rfl _

/-- The strokes below the columns of a label, with the branch in the middle. -/
theorem strokeBlock_below (hstart : label.start = line.start + column)
    (hstop : label.stop = label.start + count) (hcount : 0 < count) :
    StrokeBlock ((List.range' column count).flatMap (below label line))
      (line.text.columnsWidth column count) := by
  obtain ⟨hle, hlt⟩ := Label.covers_iff.1 (covers_middle hstart hstop hcount)
  -- the columns of the label are those before the middle, the middle and those behind it
  obtain ⟨p, hp⟩ : ∃ p, middle label line = column + p := Nat.exists_eq_add_of_le (by omega)
  obtain ⟨q, rfl⟩ : ∃ q, count = p + 1 + q := Nat.exists_eq_add_of_le (by omega)
  have hmiddle : below label line (column + p) = branch (line.text.columnWidth (column + p)) := by
    rw [below, if_pos hp.symm]
  have hleft : (List.range' column p).flatMap (below label line) =
      List.replicate (line.text.columnsWidth column p) '─' :=
    Text.flatMap_columns fun k _ _ => below_of_covers (by omega) (by omega)
  have hright : (List.range' (column + p + 1) q).flatMap (below label line) =
      List.replicate (line.text.columnsWidth (column + p + 1) q) '─' :=
    Text.flatMap_columns fun k _ _ => below_of_covers (by omega) (by omega)
  rw [Text.columnsWidth_add, Text.columnsWidth_add, Text.columnsWidth_one,
    ← List.range'_append_1, ← List.range'_append_1, List.range'_one, List.flatMap_append,
    List.flatMap_append, List.flatMap_singleton, hmiddle, ← Nat.add_assoc, hleft, hright]
  exact strokeBlock_branch _ _ _

/-- **Below a label stands a block as wide as the label**, behind spaces as wide as the columns
before it. -/
theorem exists_written_underline (hstart : label.start = line.start + column)
    (hstop : label.stop = label.start + count) (hcount : 0 < count) :
    ∃ block, StrokeBlock block (line.text.columnsWidth column count) ∧
      written .plain (underline label line) =
        List.replicate (line.text.columnsWidth 0 column) ' ' ++ block ++
          List.replicate (line.text.columnsWidth (column + count) 2) ' ' := by
  refine ⟨_, strokeBlock_below hstart hstop hcount, ?_⟩
  have hmiddle : line.start + middle label line = (label.start + label.stop) / 2 := by
    rw [middle]
    omega
  have hbefore : (List.range' 0 column).flatMap (below label line) =
      List.replicate (line.text.columnsWidth 0 column) ' ' :=
    Text.flatMap_columns fun k _ _ => below_of_not_covers (by omega) (by omega)
  have hbehind : (List.range' (column + count) 2).flatMap (below label line) =
      List.replicate (line.text.columnsWidth (column + count) 2) ' ' :=
    Text.flatMap_columns fun k _ _ => below_of_not_covers (by omega) (by omega)
  rw [written_underline hstart hstop hcount, ← List.range'_append_1, ← List.range'_append_1,
    Nat.zero_add, Nat.zero_add, List.flatMap_append, List.flatMap_append, hbefore, hbehind]

end Below

end Report

/-! ## The line of a label -/

namespace Label

variable {source text : Text} {before after : List Text} {label : Label} {column count : Nat}

/-- A label is in one line if it ends in it; that may be behind the last character of the line. -/
theorem number_eq_iff (hlines : source.lines = before ++ text :: after)
    (hstart : label.start = before.flatten.length + column)
    (hcolumn : column < text.length ∨ after = [] ∧ column = text.length)
    (hstop : label.stop = label.start + count) (hcount : 0 < count)
    (hle : label.stop ≤ source.length) :
    (label.firstLine source).number = (label.lastLine source).number ↔
      column + count ≤ text.length := by
  have hfirst : label.firstLine source = ⟨before.length + 1, before.flatten.length, text⟩ :=
    Line.holding_of_lines hlines hstart (hcolumn.imp_right And.left)
  have hlast : label.lastLine source = .holding source (label.stop - 1) := by
    rw [lastLine, Nat.max_eq_left (by omega)]
  rw [hfirst, hlast]
  constructor
  · intro hnumber
    have hne : source ≠ [] := List.ne_nil_of_length_pos (by omega)
    obtain ⟨front, line, rest, last, hcut, hoffset, _, hbound⟩ :=
      Line.exists_place hne (show label.stop - 1 ≤ source.length by omega)
    rw [Line.holding_of_lines hcut hoffset (hbound.imp_right And.left)] at hnumber
    -- the two cuts have equally many lines above, so they are one
    obtain ⟨rfl, hrest⟩ := List.append_inj (hlines.symm.trans hcut) (Nat.succ.inj hnumber)
    obtain ⟨rfl, rfl⟩ := List.cons.inj hrest
    rcases hbound with hbound | ⟨rfl, hend⟩
    · omega
    · have hlength : source.length = before.flatten.length + text.length := by
        rw [← Text.flatten_lines source, hlines, List.flatten_append, List.length_append,
          List.flatten_singleton]
      omega
  · intro hwithin
    have hoffset : label.stop - 1 = before.flatten.length + (column + count - 1) := by omega
    rw [Line.holding_of_lines hlines hoffset (.inl (by omega))]

end Label

namespace Report

/-- What stands left of the rows below a line. -/
def gutter (number : Nat) : Text :=
  ' ' :: List.replicate (numberWidth number + 1) ' ' ++ ['│', ' ']

theorem written_gutter (number : Nat) :
    written .plain (unnumbered (numberWidth number) "│") = gutter number := by
  simp [written, gutter, unnumbered, Piece.write, Piece.spaces, Piece.bare, Ink.write]

theorem plain_eq (row : Row) : row.plain = String.ofList (written .plain row) ++ "\n" := by
  have hrow : (row.write .plain).toList = written .plain row ++ ['\n'] := toList_write_row row
  rw [← String.toList_inj, String.toList_append, String.toList_ofList]
  exact hrow

variable {source : Text} {diagnosis : Diagnosis} {label : Label}

theorem plain_place {line : Line} (h : label.firstLine source = line) :
    (draw source diagnosis label).rows[1]?.map Row.plain =
      some (String.ofList (List.replicate (numberWidth (label.lastLine source).number + 2) ' ') ++
        s!"╭─[ <invoice>:{line.number}:{label.start - line.start + 1} ]\n") := by
  subst h
  refine congrArg some ?_
  rw [plain_eq, ← String.toList_inj]
  simp only [written, Piece.write, Piece.spaces, Piece.bare, Ink.write, List.flatMap_cons,
    List.flatMap_nil, String.toList_append, String.toList_ofList, List.append_assoc]
  rfl

theorem plain_underline {line : Line} (hfirst : label.firstLine source = line)
    (hnumber : (label.firstLine source).number = (label.lastLine source).number) :
    (draw source diagnosis label).rows[4]?.map Row.plain =
      some (String.ofList (gutter line.number ++ written .plain (underline label line)) ++
        "\n") := by
  subst hfirst
  have hrow : (draw source diagnosis label).rows[4]? =
      some (unnumbered (numberWidth (label.firstLine source).number) "│" ++
        underline label (label.firstLine source)) := by
    rw [draw]
    simp only [if_pos hnumber]
    rfl
  rw [hrow, Option.map_some, plain_eq, ← written_gutter, written, written, written,
    List.flatMap_append]

/-- **A report points at its label.** The heading of the source names a line and a column, and the
lines above and the columns before are what comes before the label. If the label lies in that line,
a block of strokes as wide as the label stands below it, behind spaces as wide as what is before. -/
theorem points_at_label {rejection : Rejection} {lines : List Text} {report : Report}
    (hsource : source ≠ []) (hlines : source.CutInLines lines)
    (h : ofRejection? source rejection = some report)
    (hlabel : Label.ofSpan source rejection.diagnosis.span = label) :
    ∃ before text after column, lines = before ++ text :: after ∧
      before.flatten ++ text.take column = source.take label.start ∧
      (column < text.length ∨ after = [] ∧ column = text.length) ∧
      report.rows[1]?.map Row.plain =
        some (String.ofList (List.replicate (numberWidth (label.lastLine source).number + 2) ' ') ++
          s!"╭─[ <invoice>:{before.length + 1}:{column + 1} ]\n") ∧
      ∀ count, 0 < count → label.stop = label.start + count →
        ((label.firstLine source).number = (label.lastLine source).number ↔
          column + count ≤ text.length) ∧
        (column + count ≤ text.length →
          ∃ block, StrokeBlock block (text.columnsWidth column count) ∧
            report.rows[4]?.map Row.plain =
              some (String.ofList (gutter (before.length + 1) ++
                (List.replicate (text.columnsWidth 0 column) ' ' ++ block ++
                  List.replicate (text.columnsWidth (column + count) 2) ' ')) ++ "\n")) := by
  obtain rfl := Text.cutInLines_iff.1 hlines
  obtain rfl := draw_of_ofRejection? hsource h
  rw [hlabel]
  have hstart : label.start ≤ source.length := hlabel ▸ Text.charsBefore_le_length source _
  have hstop : label.stop ≤ source.length := hlabel ▸ Text.charsBefore_le_length source _
  obtain ⟨before, text, after, column, hcut, hoffset, hchars, hcolumn⟩ :=
    Line.exists_place hsource hstart
  have hfirst : label.firstLine source = ⟨before.length + 1, before.flatten.length, text⟩ :=
    Line.holding_of_lines hcut hoffset (hcolumn.imp_right And.left)
  refine ⟨before, text, after, column, hcut, hchars, hcolumn, ?_, fun count hcount hend => ?_⟩
  · rw [plain_place hfirst, hoffset, Nat.add_sub_cancel_left]
  · have hnumber := Label.number_eq_iff hcut hoffset hcolumn hend hcount hstop
    refine ⟨hnumber, fun hwithin => ?_⟩
    have hline : label.start =
      (Line.mk (before.length + 1) before.flatten.length text).start + column := hoffset
    obtain ⟨block, hblock, hwritten⟩ := exists_written_underline hline hend hcount
    exact ⟨block, hblock, by rw [plain_underline hfirst (hnumber.2 hwithin), hwritten]⟩

/-- A label on a letter of two bytes and one of three, which is two columns wide, behind a tab in
the second line. -/
theorem points_at_label_wide :
    ∃ report, ofRejection? "I +\r\n\té三 + 9".toList (Fault.overflow.inSpan ⟨6, 11⟩) = some report ∧
      report.rows[1]?.map Row.plain = some "   ╭─[ <invoice>:2:2 ]\n" ∧
      ∃ block, StrokeBlock block 3 ∧
        report.rows[4]?.map Row.plain =
          some (String.ofList ("   │ ".toList ++ ("    ".toList ++ block ++ "  ".toList)) ++
            "\n") := by
  have hlines : Text.CutInLines "I +\r\n\té三 + 9".toList
      ["I +\r\n".toList, "\té三 + 9".toList] := Text.cutInLines_iff.2 (by decide)
  obtain ⟨report, hreport⟩ : ∃ report, ofRejection? "I +\r\n\té三 + 9".toList
      (Fault.overflow.inSpan ⟨6, 11⟩) = some report := ⟨_, rfl⟩
  have hlabel : Label.ofSpan "I +\r\n\té三 + 9".toList
      (Fault.overflow.inSpan ⟨6, 11⟩).diagnosis.span = ⟨6, 8⟩ := rfl
  obtain ⟨before, text, after, column, hcut, hchars, hcolumn, hplace, hbelow⟩ :=
    points_at_label (by decide) hlines hreport hlabel
  obtain ⟨hnumber, hunderline⟩ := hbelow 2 (by decide) rfl
  obtain ⟨block, hblock, hrow⟩ := hunderline (hnumber.1 rfl)
  have hlength := congrArg List.length hchars
  obtain ⟨rfl, rfl, rfl⟩ : before = ["I +\r\n".toList] ∧ text = "\té三 + 9".toList ∧ column = 1 := by
    rcases before with _ | ⟨line, _ | ⟨next, before⟩⟩
    · obtain ⟨rfl, rfl⟩ := List.cons.inj hcut
      simp at hlength
      omega
    · obtain ⟨rfl, hrest⟩ := List.cons.inj hcut
      obtain ⟨rfl, rfl⟩ := List.cons.inj hrest
      simp at hlength
      exact ⟨rfl, rfl, by omega⟩
    · simp at hcut
  have hbefore : Text.columnsWidth "\té三 + 9".toList 0 1 = 4 := by decide +kernel
  have hwidth : Text.columnsWidth "\té三 + 9".toList 1 2 = 3 := by decide +kernel
  have hbehind : Text.columnsWidth "\té三 + 9".toList 3 2 = 2 := by decide +kernel
  rw [hwidth] at hblock
  rw [hbefore, hbehind] at hrow
  exact ⟨report, hreport, hplace.trans (by decide +kernel), block, hblock, hrow⟩

end Report

end RomanInvoice
