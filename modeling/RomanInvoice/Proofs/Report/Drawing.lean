import RomanInvoice.Proofs.NormalForm
import RomanInvoice.Proofs.Report.Place
import RomanInvoice.Report

/-!
# Drawings — what a report is made of

A drawing begins with its heading. All that comes behind is one of five kinds of pieces (`Drawn`):
the message, the help, a character of the source, a corner, and pieces of frame, which hold strokes
and numbers. So a class of characters that holds the frame, the texts of the diagnosis and the
source holds the report (`exists_rows_draw`, `Holds.draw`), and if none of them ends a line then the
rows of the report are its lines (`lines_write`).
-/

namespace RomanInvoice

/-! ## Characters of a source -/

theorem Text.mem_of_mem_trimEnd {c : Char} {text : Text} (h : c ∈ trimEnd text) : c ∈ text := by
  induction text with
  | nil => exact h
  | cons d text ih =>
    rw [trimEnd] at h
    split at h
    · split at h
      · cases h
      · exact List.mem_cons.2 (.inl (List.mem_singleton.1 h))
    · rcases List.mem_cons.1 h with rfl | h
      · exact List.mem_cons_self
      · exact List.mem_cons_of_mem d (ih h)

namespace Line

theorem mem_search {c : Char} {number start offset : Nat} {lines : List Text}
    (h : c ∈ (search number start offset lines).text) : c ∈ lines.flatten := by
  fun_induction search number start offset lines with
  | case1 => exact h
  | case2 => simpa using h
  | case3 number start text next lines hlt => exact List.mem_append_left _ h
  | case4 number start text next lines hlt ih => exact List.mem_append_right _ (ih h)

theorem mem_holding {c : Char} {source : Text} {offset : Nat}
    (h : c ∈ (holding source offset).text) : c ∈ source := by
  rw [← Text.flatten_lines source]
  exact mem_search h

/-- A cell shows a space or a character of its line that is no blank. -/
theorem glyph_of_mem_cells {line : Line} {cell : Cell} (h : cell ∈ line.cells) :
    cell.glyph = ' ' ∨ cell.glyph ∈ line.text ∧ isBlank cell.glyph = false := by
  obtain ⟨column, hcolumn, rfl⟩ := List.mem_mapIdx.1 h
  have hmem := Text.mem_of_mem_trimEnd (List.getElem_mem hcolumn)
  unfold Cell.ofChar
  split
  · exact .inl rfl
  · split
    · exact .inl rfl
    · next hblank => exact .inr ⟨hmem, by simpa using hblank⟩

end Line

namespace Report

/-! ## Pieces -/

/-- The characters of strokes, borders and the words between them. -/
def frame : Text :=
  [' ', '│', '┆', '╭', '─', '┬', '╰', '├', '▶', '╯', ']', '<', '>', ':', 'i', 'n', 'v', 'o', 'c',
    'e', 'H', 'l', 'p', 'E', 'r']

/-- A text of strokes and numbers. -/
def Framed (text : String) : Prop :=
  ∀ c ∈ text.toList, c.isDigit ∨ c ∈ frame

instance (text : String) : Decidable (Framed text) :=
  List.decidableBAll (fun c : Char => c.isDigit ∨ c ∈ frame) text.toList

theorem Framed.append {a b : String} (ha : Framed a) (hb : Framed b) : Framed (a ++ b) := by
  unfold Framed
  rw [String.toList_append]
  exact List.forall_mem_append.2 ⟨ha, hb⟩

theorem framed_toString (n : Nat) : Framed (toString n) :=
  fun _ hc => .inl (isDigit_of_mem_repr hc)

theorem framed_replicate {c : Char} (h : c ∈ frame) (n : Nat) :
    Framed (String.ofList (List.replicate n c)) := by
  intro d hd
  rw [String.toList_ofList] at hd
  exact .inr (List.eq_of_mem_replicate hd ▸ h)

/-- The pieces behind the heading of a report. -/
inductive Drawn (source : Text) (diagnosis : Diagnosis) : Piece → Prop where
  | message : Drawn source diagnosis (.bare (" " ++ diagnosis.message))
  | help {help : String} : diagnosis.help? = some help →
    Drawn source diagnosis (.bare (": " ++ help))
  | glyph (ink : Ink) {c : Char} : c ∈ source → isBlank c = false →
    Drawn source diagnosis (ink.write c.toString)
  | corner : Drawn source diagnosis (Ink.border.write "[")
  | frame {piece : Piece} : Framed piece.text → Drawn source diagnosis piece

/-- A row of pieces that are drawn. -/
def DrawnRow (source : Text) (diagnosis : Diagnosis) (row : Row) : Prop :=
  ∀ piece ∈ row, Drawn source diagnosis piece

section Drawn

variable {source : Text} {diagnosis : Diagnosis} {row other : Row} {label : Label} {line : Line}

theorem DrawnRow.append (h : DrawnRow source diagnosis row)
    (hother : DrawnRow source diagnosis other) : DrawnRow source diagnosis (row ++ other) :=
  List.forall_mem_append.2 ⟨h, hother⟩

theorem drawnRow_cons {piece : Piece} : DrawnRow source diagnosis (piece :: row) ↔
    Drawn source diagnosis piece ∧ DrawnRow source diagnosis row :=
  List.forall_mem_cons

theorem drawnRow_nil : DrawnRow source diagnosis [] :=
  List.forall_mem_nil _

theorem drawnRow_singleton {piece : Piece} (h : Drawn source diagnosis piece) :
    DrawnRow source diagnosis [piece] :=
  drawnRow_cons.2 ⟨h, drawnRow_nil⟩

theorem drawn_spaces (n : Nat) : Drawn source diagnosis (.spaces n) :=
  .frame (framed_replicate (by decide) n)

theorem drawn_stroke {text : String} (h : Framed text) : Drawn source diagnosis (stroke text) :=
  .frame h

/-- The stroke that most rows of the label are made of. -/
theorem drawn_dash : Drawn source diagnosis (stroke "─") :=
  drawn_stroke (by decide)

theorem drawnRow_numbered (width number : Nat) :
    DrawnRow source diagnosis (numbered width number) := by
  have hborder (pad : Nat) :
      Framed (String.ofList (List.replicate pad ' ') ++ toString number ++ " │") :=
    ((framed_replicate (by decide) pad).append (framed_toString number)).append (by decide)
  exact drawnRow_cons.2 ⟨drawn_spaces 1, drawnRow_cons.2 ⟨.frame (hborder _),
    drawnRow_singleton (drawn_spaces 1)⟩⟩

theorem drawnRow_unnumbered (width : Nat) {stroke : String} (h : Framed stroke) :
    DrawnRow source diagnosis (unnumbered width stroke) := by
  have hborder : Framed (String.ofList (List.replicate (width + 1) ' ') ++ stroke) :=
    (framed_replicate (by decide) _).append h
  exact drawnRow_cons.2 ⟨drawn_spaces 1, drawnRow_cons.2 ⟨.frame hborder,
    drawnRow_singleton (drawn_spaces 1)⟩⟩

theorem drawnRow_lineText (hline : ∀ c ∈ line.text, c ∈ source) :
    DrawnRow source diagnosis (lineText label line) := by
  intro piece hpiece
  obtain ⟨_, hcell, hpiece⟩ := List.mem_flatten.1 hpiece
  obtain ⟨column, hcolumn, rfl⟩ := List.mem_mapIdx.1 hcell
  rw [List.eq_of_mem_replicate hpiece]
  rcases Line.glyph_of_mem_cells (List.getElem_mem hcolumn) with hspace | ⟨hmem, hblank⟩
  · rw [hspace]
    exact .frame (show Framed (' ').toString by decide)
  · exact .glyph _ (hline _ hmem) hblank

theorem drawnRow_column {first others : Piece} (hfirst : Drawn source diagnosis first)
    (hothers : Drawn source diagnosis others) (width : Nat) :
    DrawnRow source diagnosis (column first others width) := by
  cases width with
  | zero => exact drawnRow_nil
  | succ width =>
    refine drawnRow_cons.2 ⟨hfirst, fun piece hpiece => ?_⟩
    rwa [List.eq_of_mem_replicate hpiece]

theorem drawnRow_flatten_mapIdx {α : Type} {f : Nat → α → Row}
    (h : ∀ k a, DrawnRow source diagnosis (f k a)) (values : List α) :
    DrawnRow source diagnosis (values.mapIdx f).flatten := by
  intro piece hpiece
  obtain ⟨_, hrow, hpiece⟩ := List.mem_flatten.1 hpiece
  obtain ⟨k, _, rfl⟩ := List.mem_mapIdx.1 hrow
  exact h k _ piece hpiece

theorem drawnRow_underline : DrawnRow source diagnosis (underline label line) := by
  refine drawnRow_flatten_mapIdx (fun k width => ?_) _
  split
  · split
    · exact drawnRow_column (drawn_stroke (by decide)) drawn_dash width
    · exact drawnRow_column (drawn_stroke (by decide)) (drawn_stroke (by decide)) width
  · split
    · exact drawnRow_column drawn_dash drawn_dash width
    · exact drawnRow_column (drawn_spaces 1) (drawn_spaces 1) width

theorem drawnRow_leader : DrawnRow source diagnosis (leader label line) := by
  refine drawnRow_flatten_mapIdx (fun k width => ?_) _
  split
  · exact drawnRow_column (drawn_stroke (by decide)) drawn_dash width
  · split
    · exact drawnRow_column drawn_dash drawn_dash width
    · exact drawnRow_column (drawn_spaces 1) (drawn_spaces 1) width

theorem drawnRow_message : DrawnRow source diagnosis [.bare (" " ++ diagnosis.message)] :=
  drawnRow_singleton .message

theorem drawnRow_border (width : Nat) : DrawnRow source diagnosis (unnumbered width "│") :=
  drawnRow_unnumbered width (by decide)

theorem drawnRow_arrow {corner : String} (h : Framed corner) :
    DrawnRow source diagnosis (arrow corner) :=
  drawnRow_cons.2 ⟨drawn_stroke h, drawnRow_cons.2 ⟨drawn_dash,
    drawnRow_cons.2 ⟨drawn_stroke (by decide), drawnRow_singleton (drawn_stroke (by decide))⟩⟩⟩

theorem drawnRow_singleLine (hline : ∀ c ∈ line.text, c ∈ source) :
    ∀ row ∈ singleLine label line diagnosis.message, DrawnRow source diagnosis row := by
  refine List.forall_mem_cons.2 ⟨?_, List.forall_mem_cons.2 ⟨?_, List.forall_mem_singleton.2 ?_⟩⟩
  · exact (drawnRow_numbered _ _).append (drawnRow_lineText hline)
  · exact (drawnRow_border _).append drawnRow_underline
  · exact ((drawnRow_border _).append drawnRow_leader).append drawnRow_message

theorem drawnRow_severalLines {first last : Line} (hfirst : ∀ c ∈ first.text, c ∈ source)
    (hlast : ∀ c ∈ last.text, c ∈ source) :
    ∀ row ∈ severalLines label first last diagnosis.message, DrawnRow source diagnosis row := by
  unfold severalLines
  refine List.forall_mem_append.2 ⟨List.forall_mem_append.2 ⟨?_, ?_⟩, ?_⟩
  · refine List.forall_mem_singleton.2 ?_
    exact ((drawnRow_numbered _ _).append (drawnRow_arrow (by decide))).append
      (drawnRow_lineText hfirst)
  · split
    · exact List.forall_mem_nil _
    · refine List.forall_mem_singleton.2 ((drawnRow_unnumbered _ (by decide)).append ?_)
      exact drawnRow_cons.2 ⟨drawn_stroke (by decide), drawnRow_singleton (drawn_spaces 3)⟩
  · refine List.forall_mem_cons.2 ⟨?_, List.forall_mem_cons.2 ⟨?_, List.forall_mem_singleton.2 ?_⟩⟩
    · exact ((drawnRow_numbered _ _).append (drawnRow_arrow (by decide))).append
        (drawnRow_lineText hlast)
    · exact (drawnRow_border _).append (drawnRow_cons.2 ⟨drawn_stroke (by decide),
        drawnRow_cons.2 ⟨drawn_spaces 3, drawnRow_singleton (drawn_spaces _)⟩⟩)
    · refine ((drawnRow_border _).append (drawnRow_cons.2 ⟨drawn_stroke (by decide), ?_⟩)).append
        drawnRow_message
      intro piece hpiece
      rw [List.eq_of_mem_replicate hpiece]
      exact drawn_dash

theorem drawnRow_advice (width : Nat) {edge : Row} (hedge : DrawnRow source diagnosis edge) :
    ∀ row ∈ advice width diagnosis edge, DrawnRow source diagnosis row := by
  unfold advice
  split
  · exact List.forall_mem_nil _
  · next help hhelp =>
    have hborder := (drawnRow_border width).append hedge
    refine List.forall_mem_cons.2 ⟨hborder, List.forall_mem_singleton.2 (hborder.append ?_)⟩
    exact drawnRow_cons.2 ⟨.frame (by decide), drawnRow_singleton (.help hhelp)⟩

theorem drawnRow_footer (width : Nat) : DrawnRow source diagnosis (footer width) :=
  drawnRow_singleton (.frame ((framed_replicate (by decide) _).append (by decide)))

/-- The borders above the source, with the place of the label. -/
theorem drawnRow_header {first : Line} (width : Nat) :
    ∀ row ∈ (header width diagnosis label first).tail, DrawnRow source diagnosis row := by
  have hplace (line column : Nat) : Framed s!" <invoice>:{line}:{column} " :=
    ((((show Framed " <invoice>:" by decide).append (framed_toString line)).append
      (show Framed ":" by decide)).append (framed_toString column)).append (by decide)
  have hborder (text : String) (h : Framed text) :
      Drawn source diagnosis (Ink.border.write text) := .frame h
  refine List.forall_mem_cons.2 ⟨?_, List.forall_mem_singleton.2 ?_⟩
  · exact drawnRow_cons.2 ⟨drawn_spaces _, drawnRow_cons.2 ⟨hborder _ (by decide),
      drawnRow_cons.2 ⟨hborder _ (by decide), drawnRow_cons.2 ⟨.corner,
        drawnRow_cons.2 ⟨.frame (hplace _ _), drawnRow_singleton (hborder _ (by decide))⟩⟩⟩⟩⟩
  · exact drawnRow_cons.2 ⟨drawn_spaces _, drawnRow_singleton (hborder _ (by decide))⟩

end Drawn

/-! ## The whole drawing -/

/-- The first piece of a report. -/
def heading (diagnosis : Diagnosis) : Piece :=
  Ink.heading.write s!"[{diagnosis.code}] Error:"

/-- **A drawing is its heading with the message, and drawn pieces below.** -/
theorem exists_rows_draw (source : Text) (diagnosis : Diagnosis) (label : Label) :
    ∃ rows, (draw source diagnosis label).rows =
        [heading diagnosis, .bare (" " ++ diagnosis.message)] :: rows ∧
      ∀ row ∈ rows, DrawnRow source diagnosis row := by
  refine ⟨_, rfl, ?_⟩
  have hline (offset : Nat) : ∀ c ∈ (Line.holding source offset).text, c ∈ source :=
    fun c hc => Line.mem_holding hc
  refine List.forall_mem_append.2 ⟨List.forall_mem_append.2 ⟨List.forall_mem_append.2 ⟨?_, ?_⟩, ?_⟩,
    List.forall_mem_singleton.2 (drawnRow_footer _)⟩
  · exact drawnRow_header _
  · split
    · exact drawnRow_singleLine (hline _)
    · exact drawnRow_severalLines (hline _) (hline _)
  · refine drawnRow_advice _ ?_
    split
    · exact drawnRow_nil
    · split
      · exact drawnRow_cons.2 ⟨drawn_stroke (by decide), drawnRow_singleton (drawn_spaces 3)⟩
      · exact drawnRow_singleton (drawn_spaces 4)

/-- A class of characters that holds all that a report shows of a source and a diagnosis. -/
structure Holds (P : Char → Prop) (source : Text) (diagnosis : Diagnosis) : Prop where
  frame : ∀ c, c = '[' ∨ c.isDigit ∨ c ∈ frame → P c
  code : ∀ c ∈ diagnosis.code.toList, P c
  message : ∀ c ∈ diagnosis.message.toList, P c
  help : ∀ help, diagnosis.help? = some help → ∀ c ∈ help.toList, P c
  source : ∀ c ∈ source, isBlank c = false → P c

section Holds

variable {P : Char → Prop} {source : Text} {diagnosis : Diagnosis}

theorem Holds.framed (h : Holds P source diagnosis) {text : String} (htext : Framed text) :
    ∀ c ∈ text.toList, P c :=
  fun c hc => h.frame c (.inr (htext c hc))

theorem Holds.drawn (h : Holds P source diagnosis) {piece : Piece}
    (hpiece : Drawn source diagnosis piece) : ∀ c ∈ piece.text.toList, P c := by
  cases hpiece with
  | message =>
    rw [Piece.bare, String.toList_append]
    exact List.forall_mem_append.2 ⟨h.framed (by decide), h.message⟩
  | help hhelp =>
    rw [Piece.bare, String.toList_append]
    exact List.forall_mem_append.2 ⟨h.framed (by decide), h.help _ hhelp⟩
  | glyph ink hc hblank => simpa [Ink.write] using h.source _ hc hblank
  | corner => simpa [Ink.write] using h.frame '[' (.inl rfl)
  | frame htext => exact h.framed htext

theorem Holds.heading (h : Holds P source diagnosis) :
    ∀ c ∈ (heading diagnosis).text.toList, P c := by
  show ∀ c ∈ ("[" ++ diagnosis.code ++ "] Error:").toList, P c
  rw [String.toList_append, String.toList_append]
  refine List.forall_mem_append.2 ⟨List.forall_mem_append.2 ⟨?_, h.code⟩, h.framed (by decide)⟩
  simpa using h.frame '[' (.inl rfl)

/-- The characters of a drawing are those of the frame, of the diagnosis and of the source. -/
theorem Holds.draw (h : Holds P source diagnosis) (label : Label) :
    ∀ row ∈ (draw source diagnosis label).rows, ∀ piece ∈ row, ∀ c ∈ piece.text.toList, P c := by
  obtain ⟨rows, hrows, hdrawn⟩ := exists_rows_draw source diagnosis label
  rw [hrows]
  refine List.forall_mem_cons.2
    ⟨?_, fun row hrow piece hpiece => h.drawn (hdrawn row hrow _ hpiece)⟩
  exact List.forall_mem_cons.2 ⟨h.heading, List.forall_mem_singleton.2 (h.drawn .message)⟩

end Holds

end Report

/-! ## Rows and lines -/

/-- A line without an end within it stands before the lines of what follows. -/
theorem Text.lines_append_feed {line : Text} (h : ∀ c ∈ line, endsLine c = false) (rest : Text) :
    lines (line ++ '\n' :: rest) = (line ++ ['\n']) :: lines rest :=
  lines_append h (lines_lineEnd_append (.single rfl) (fun heq => nomatch heq))

namespace Report

variable {style : Style}

/-- What is written of a row in its line. -/
def written (style : Style) (row : Row) : Text :=
  row.flatMap fun piece => (piece.write style).toList

theorem toList_write_row (row : Row) :
    (row.write style).toList = written style row ++ ['\n'] := by
  cases style with
  | plain =>
    show (String.join (row.map Piece.text) ++ "\n").toList = _
    rw [String.toList_append, String.toList_join, List.flatMap_map]
    rfl
  | coloured =>
    show (String.join (row.map Piece.coloured) ++ "\n").toList = _
    rw [String.toList_append, String.toList_join, List.flatMap_map]
    rfl

theorem toList_write (report : Report) :
    (report.write style).toList = report.rows.flatMap fun row => (row.write style).toList := by
  cases style with
  | plain =>
    show (String.join (report.rows.map Row.plain)).toList = _
    rw [String.toList_join, List.flatMap_map]
    rfl
  | coloured =>
    show (String.join (report.rows.map Row.coloured)).toList = _
    rw [String.toList_join, List.flatMap_map]
    rfl

/-- The text of a piece is written whole in its line. -/
theorem infix_written {piece : Piece} {row : Row} (h : piece ∈ row) :
    piece.text.toList <:+: written style row := by
  have hwrite : piece.text.toList <:+: (piece.write style).toList := by
    obtain ⟨ink?, text⟩ := piece
    cases style with
    | plain => exact List.infix_rfl
    | coloured =>
      cases ink? with
      | none => exact List.infix_rfl
      | some ink =>
        show text.toList <:+: ("\x1b[" ++ ink.colour ++ "m" ++ text ++ "\x1b[0m").toList
        rw [String.toList_append, String.toList_append]
        exact List.infix_append _ _ _
  obtain ⟨a, b, rfl⟩ := List.append_of_mem h
  rw [written, List.flatMap_append, List.flatMap_cons]
  exact List.infix_append_of_infix_right (List.infix_append_of_infix_left hwrite)

/-- Colours do not end a line. -/
theorem endsLine_of_mem_write {piece : Piece} (h : ∀ c ∈ piece.text.toList, endsLine c = false) :
    ∀ c ∈ (piece.write style).toList, endsLine c = false := by
  obtain ⟨ink?, text⟩ := piece
  cases style with
  | plain => exact h
  | coloured =>
    cases ink? with
    | none => exact h
    | some ink =>
      have hcolour : ("\x1b[" ++ ink.colour ++ "m").toList.all (!endsLine ·) := by
        cases ink <;> decide
      have hreset : "\x1b[0m".toList.all (!endsLine ·) := by decide
      show ∀ c ∈ ("\x1b[" ++ ink.colour ++ "m" ++ text ++ "\x1b[0m").toList, endsLine c = false
      rw [String.toList_append, String.toList_append]
      refine List.forall_mem_append.2 ⟨List.forall_mem_append.2 ⟨?_, h⟩, ?_⟩
      · simpa using List.all_eq_true.1 hcolour
      · simpa using List.all_eq_true.1 hreset

/-- **Rows are lines**: where no piece ends a line, a report has a line for each of its rows. -/
theorem lines_write {report : Report}
    (h : ∀ row ∈ report.rows, ∀ piece ∈ row, ∀ c ∈ piece.text.toList, endsLine c = false) :
    Text.lines (report.write style).toList =
      report.rows.map fun row => (row.write style).toList := by
  obtain ⟨rows⟩ := report
  rw [toList_write]
  induction rows with
  | nil => rfl
  | cons row rows ih =>
    obtain ⟨hrow, hrows⟩ := List.forall_mem_cons.1 h
    have hline : ∀ c ∈ written style row, endsLine c = false := by
      intro c hc
      obtain ⟨piece, hpiece, hc⟩ := List.mem_flatMap.1 hc
      exact endsLine_of_mem_write (hrow piece hpiece) c hc
    rw [List.flatMap_cons, List.map_cons, toList_write_row, List.append_assoc,
      List.singleton_append, Text.lines_append_feed hline, ih hrows]

/-- A text in no ink is written in the same way in every style. -/
theorem write_bare (text : String) : (⟨[[.bare text]]⟩ : Report).write style = text ++ "\n" := by
  cases style with
  | plain =>
    show String.join [String.join [text] ++ "\n"] = _
    simp [String.join]
  | coloured =>
    show String.join [String.join [text] ++ "\n"] = _
    simp [String.join]

/-! ## Reports of rejections -/

section OfRejection

variable {source : Text} {rejection : Rejection} {report : Report}

theorem eq_of_ofRejection?_nil (h : ofRejection? [] rejection = some report) :
    report = ⟨[[.bare rejection.diagnosis.display]]⟩ :=
  (Option.some.inj h).symm

theorem draw_of_ofRejection? (hsource : source ≠ [])
    (h : ofRejection? source rejection = some report) :
    report = draw source rejection.diagnosis (.ofSpan source rejection.diagnosis.span) := by
  rw [ofRejection?, if_neg hsource] at h
  exact (Option.some.inj (Option.ite_none_right_eq_some.1 h).2).symm

theorem exists_draw_of_ofRejection? (hsource : source ≠ [])
    (h : ofRejection? source rejection = some report) :
    ∃ label, report = draw source rejection.diagnosis label :=
  ⟨_, draw_of_ofRejection? hsource h⟩

end OfRejection

end Report

end RomanInvoice
