import RomanInvoice.Proofs.Message

/-!
# Colours — two reports that say the same

A report in colour is the plain report with escape sequences around its pieces.
`Text.withoutColours` takes every such sequence out of a text, by nothing but the characters that
make it one. Where no piece of a report has an escape character of its own, the sequences that are
found are the ones that were put in, and so the plain report is left
(`Report.withoutColours_write`).
-/

namespace RomanInvoice

/-! ## Escape sequences -/

/-- A character that may stand between the bracket and the end of a colour sequence. -/
def isParameter (c : Char) : Bool :=
  c.isDigit || c = ';'

namespace Text

/-- The length of the colour sequence with which a text begins, or zero if there is none: an escape
character, a bracket, digits and semicolons, and the letter `m`. -/
def sequenceLength : Text → Nat
  | '\x1b' :: '[' :: text =>
    match text.dropWhile isParameter with
    | 'm' :: _ => (text.takeWhile isParameter).length + 3
    | _ => 0
  | _ => 0

/-- A text without its colour sequences, where the first characters are still of one. -/
def withoutColoursAfter : Nat → Text → Text
  | _, [] => []
  | rest + 1, _ :: text => withoutColoursAfter rest text
  | 0, c :: text =>
    match sequenceLength (c :: text) with
    | 0 => c :: withoutColoursAfter 0 text
    | rest + 1 => withoutColoursAfter rest text

/-- A text without its colour sequences. -/
def withoutColours (text : Text) : Text :=
  withoutColoursAfter 0 text

theorem withoutColoursAfter_eq_drop (n : Nat) (text : Text) :
    withoutColoursAfter n text = withoutColours (text.drop n) := by
  induction n generalizing text with
  | zero => rfl
  | succ n ih =>
    cases text with
    | nil => rfl
    | cons c text => exact ih text

theorem sequenceLength_of_ne {c : Char} {text : Text} (h : c ≠ '\x1b') :
    sequenceLength (c :: text) = 0 := by
  unfold sequenceLength
  split
  · next heq => exact absurd (List.cons.inj heq).1 h
  · rfl

/-- A text without an escape character is left as it is. -/
theorem withoutColours_append {text : Text} (h : '\x1b' ∉ text) (rest : Text) :
    withoutColours (text ++ rest) = text ++ withoutColours rest := by
  induction text with
  | nil => rfl
  | cons c text ih =>
    have hc : c ≠ '\x1b' := fun heq => h (heq ▸ List.mem_cons_self)
    rw [List.cons_append, withoutColours, withoutColoursAfter, sequenceLength_of_ne hc]
    exact congrArg (c :: ·) (ih fun htext => h (List.mem_cons_of_mem c htext))

theorem withoutColours_sequence {parameters : Text} (h : ∀ c ∈ parameters, isParameter c)
    (rest : Text) :
    withoutColours ('\x1b' :: '[' :: (parameters ++ 'm' :: rest)) = withoutColours rest := by
  have hlength : sequenceLength ('\x1b' :: '[' :: (parameters ++ 'm' :: rest)) =
      parameters.length + 3 := by
    have hm : isParameter 'm' = false := by decide
    rw [sequenceLength, List.dropWhile_append_of_pos h, List.takeWhile_append_of_pos h,
      List.dropWhile_cons_of_neg (by simp [hm]), List.takeWhile_cons_of_neg (by simp [hm]),
      List.append_nil]
    rfl
  have hdrop : (parameters ++ 'm' :: rest).drop (parameters.length + 1) = rest := by simp
  rw [withoutColours, withoutColoursAfter, hlength]
  show withoutColoursAfter (parameters.length + 2) _ = _
  rw [withoutColoursAfter_eq_drop, List.drop_succ_cons, hdrop]

end Text

/-! ## Texts without an escape character -/

theorem Inline.ne_escape {c : Char} (h : Inline c) : c ≠ '\x1b' := by
  rintro rfl
  exact absurd h.1 (by decide)

/-- What an excerpt is taken from. -/
def Excerpt.text : Excerpt → Text
  | nothing => []
  | quoted c => [c]
  | verbatim text => text

theorem Excerpt.escape_notMem_written {excerpt : Excerpt} (h : '\x1b' ∉ excerpt.text) :
    '\x1b' ∉ excerpt.written.toList := by
  cases excerpt with
  | nothing => exact List.not_mem_nil
  | quoted c =>
    intro hmem
    rcases mem_quoteChar hmem with hplain | ⟨rfl, _⟩
    · exact hplain.inline.ne_escape rfl
    · exact h (List.mem_singleton.2 rfl)
  | verbatim text => rwa [written, String.toList_ofList]

theorem Fault.escape_notMem_message {fault : Fault} (h : '\x1b' ∉ fault.excerpt.text) :
    '\x1b' ∉ fault.message.toList := by
  rw [message_eq, String.toList_append, List.mem_append, not_or]
  exact ⟨fun hmem => (fault.plainText_wording _ hmem).inline.ne_escape rfl,
    Excerpt.escape_notMem_written h⟩

/-- No message on an expression holds an escape character, not even where one is at fault. -/
theorem Expression.Rejects.escape_notMem_message {limits : Limits} {rejection : Rejection}
    (h : Rejects limits rejection) : '\x1b' ∉ rejection.fault.message.toList := by
  rcases h.total_or_broken with ⟨text, htotal⟩ | ⟨_, _, _, rfl⟩
  · intro hmem
    exact (Fault.inline_message (takenFrom_of_total_error htotal) _ hmem).ne_escape rfl
  · exact Fault.escape_notMem_message List.not_mem_nil

/-! ## Reports in colour -/

theorem Ink.isParameter_of_mem_colour (ink : Ink) : ∀ c ∈ ink.colour.toList, isParameter c := by
  have hall : ink.colour.toList.all isParameter := by cases ink <;> decide
  exact List.all_eq_true.1 hall

namespace Report

open Text

variable {source : Text} {rejection : Rejection} {report : Report} {row : Row}

/-- The sequences around a piece are taken out, and its text is left. -/
theorem withoutColours_write_piece {piece : Piece} (h : '\x1b' ∉ piece.text.toList) (rest : Text) :
    withoutColours ((piece.write .coloured).toList ++ rest) =
      piece.text.toList ++ withoutColours rest := by
  obtain ⟨ink?, text⟩ := piece
  cases ink? with
  | none => exact withoutColours_append h rest
  | some ink =>
    have hreset : ∀ c ∈ ['0'], isParameter c := List.forall_mem_singleton.2 (by decide)
    have hwrite : ((⟨some ink, text⟩ : Piece).write .coloured).toList ++ rest =
        '\x1b' :: '[' :: (ink.colour.toList ++
          'm' :: (text.toList ++ '\x1b' :: '[' :: (['0'] ++ 'm' :: rest))) := by
      show ("\x1b[" ++ ink.colour ++ "m" ++ text ++ "\x1b[0m").toList ++ rest = _
      simp
    rw [hwrite, withoutColours_sequence ink.isParameter_of_mem_colour, withoutColours_append h,
      withoutColours_sequence hreset]

theorem withoutColours_written (h : ∀ piece ∈ row, '\x1b' ∉ piece.text.toList) (rest : Text) :
    withoutColours (written .coloured row ++ rest) = written .plain row ++ withoutColours rest := by
  induction row with
  | nil => rfl
  | cons piece row ih =>
    obtain ⟨hpiece, hrow⟩ := List.forall_mem_cons.1 h
    rw [written, List.flatMap_cons, List.append_assoc, withoutColours_write_piece hpiece]
    show _ ++ withoutColours (written .coloured row ++ rest) = _
    rw [ih hrow, ← List.append_assoc]
    rfl

/-- **Without its colours a report is the plain one**, if there is no escape character in it. -/
theorem withoutColours_write
    (h : ∀ row ∈ report.rows, ∀ piece ∈ row, '\x1b' ∉ piece.text.toList) :
    withoutColours (report.write .coloured).toList = (report.write .plain).toList := by
  obtain ⟨rows⟩ := report
  rw [toList_write, toList_write]
  induction rows with
  | nil => rfl
  | cons row rows ih =>
    obtain ⟨hrow, hrows⟩ := List.forall_mem_cons.1 h
    have hfeed : '\x1b' ∉ ['\n'] := by decide
    rw [List.flatMap_cons, List.flatMap_cons, toList_write_row, toList_write_row,
      List.append_assoc, withoutColours_written hrow, withoutColours_append hfeed, ih hrows,
      List.append_assoc]

/-- Nothing but the texts of its pieces and the ends of its rows is in a plain report. -/
theorem escape_notMem_plain
    (h : ∀ row ∈ report.rows, ∀ piece ∈ row, '\x1b' ∉ piece.text.toList) :
    '\x1b' ∉ (report.write .plain).toList := by
  rw [toList_write]
  intro hmem
  obtain ⟨row, hrow, hmem⟩ := List.mem_flatMap.1 hmem
  rw [toList_write_row, List.mem_append] at hmem
  rcases hmem with hmem | hfeed
  · obtain ⟨piece, hpiece, hmem⟩ := List.mem_flatMap.1 hmem
    exact h row hrow piece hpiece hmem
  · exact absurd hfeed (by decide)

theorem escape_notMem_display (h : '\x1b' ∉ rejection.fault.message.toList) :
    '\x1b' ∉ rejection.diagnosis.display.toList := by
  have hcode : '\x1b' ∉ rejection.fault.code.toList :=
    fun hmem => (rejection.fault.plainText_code _ hmem).inline.ne_escape rfl
  have hhelp : '\x1b' ∉ ((rejection.fault.help?.map ("\nhelp: " ++ ·)).getD "").toList := by
    intro hmem
    rcases mem_help hmem with heq | htext
    · cases heq
    · exact htext.inline.ne_escape rfl
  rw [display_diagnosis]
  simp [h, hcode, hhelp]

/-- An escape character in a report comes from the source or from the message. -/
theorem escape_notMem_report (hreport : ofRejection? source rejection = some report)
    (hsource : '\x1b' ∉ source) (hmessage : '\x1b' ∉ rejection.fault.message.toList) :
    ∀ row ∈ report.rows, ∀ piece ∈ row, '\x1b' ∉ piece.text.toList := by
  by_cases hnil : source = []
  · subst hnil
    obtain rfl := eq_of_ofRejection?_nil hreport
    exact List.forall_mem_singleton.2 (List.forall_mem_singleton.2 (escape_notMem_display hmessage))
  · obtain ⟨label, rfl⟩ := exists_draw_of_ofRejection? hnil hreport
    have hholds : Holds (· ≠ '\x1b') source rejection.diagnosis :=
      holds_of_inline (fun c hc => hc.ne_escape) (fun c hc heq => hmessage (heq ▸ hc))
        fun c hc _ heq => hsource (heq ▸ hc)
    exact fun row hrow piece hpiece hmem => hholds.draw label row hrow piece hpiece _ hmem rfl

/-- **Colours are all that is added**: of a source and a message without an escape character the
report in colour, less its colour sequences, is the plain one, in which there is no escape
character, and a sink gets the report in colour. No message on an expression holds an escape
character, nor does one on data that holds none. Of an empty source all reports are the diagnosis in
a line. -/
theorem withoutColours_render :
    (∀ source rejection, '\x1b' ∉ source → '\x1b' ∉ rejection.diagnosis.message.toList →
      ∀ coloured, render? .coloured source rejection = some coloured →
        ∃ plain, render? .plain source rejection = some plain ∧
          withoutColours coloured.toList = plain.toList ∧ '\x1b' ∉ plain.toList ∧
          ∀ sink, renderTo? sink source rejection = some (sink ++ Utf8.encode coloured.toList)) ∧
    (∀ rejection : Rejection, '\x1b' ∉ rejection.fault.excerpt.text →
      '\x1b' ∉ rejection.diagnosis.message.toList) ∧
    (∀ limits rejection, Expression.Rejects limits rejection →
      '\x1b' ∉ rejection.diagnosis.message.toList) ∧
    ∀ rejection,
      (∀ style, render? style [] rejection = some (rejection.diagnosis.display ++ "\n")) ∧
        ∀ sink, renderTo? sink [] rejection =
          some (sink ++ Utf8.encode (rejection.diagnosis.display ++ "\n").toList) := by
  refine ⟨?_, fun rejection h => Fault.escape_notMem_message h,
    fun limits rejection h => h.escape_notMem_message, ?_⟩
  · intro source rejection hsource hmessage coloured hcoloured
    obtain ⟨report, hreport, rfl⟩ := Option.map_eq_some_iff.1 hcoloured
    have hpieces := escape_notMem_report hreport hsource hmessage
    have hplain : render? .plain source rejection = some (report.write .plain) := by
      rw [render?, hreport, Option.map_some]
    refine ⟨_, hplain, withoutColours_write hpieces, escape_notMem_plain hpieces, fun sink => ?_⟩
    rw [renderTo?, hcoloured, Option.map_some]
  · intro rejection
    have hrender (style : Style) :
        render? style [] rejection = some (rejection.diagnosis.display ++ "\n") :=
      congrArg some (write_bare _)
    exact ⟨hrender, fun sink => by rw [renderTo?, hrender, Option.map_some]⟩

/-- An escape character is at fault, and a source that looks as if there were colours in it is
shown. -/
theorem withoutColours_render_brackets :
    Expression.total {} "\x1b[31m".toList = .error ((Fault.illegalChar '\x1b').inSpan ⟨0, 1⟩) ∧
      ∃ coloured plain,
        render? .coloured "[31m\t0\n;m".toList ((Fault.illegalChar '\x1b').inSpan ⟨0, 8⟩) =
          some coloured ∧
        render? .plain "[31m\t0\n;m".toList ((Fault.illegalChar '\x1b').inSpan ⟨0, 8⟩) =
          some plain ∧
        withoutColours coloured.toList = plain.toList ∧ '\x1b' ∉ plain.toList := by
  have htotal : Expression.total {} "\x1b[31m".toList =
      .error ((Fault.illegalChar '\x1b').inSpan ⟨0, 1⟩) := rfl
  obtain ⟨hrender, _, hrejects, _⟩ := withoutColours_render
  have hmessage := hrejects {} _ (.total htotal)
  obtain ⟨coloured, hcoloured⟩ : ∃ coloured, render? .coloured "[31m\t0\n;m".toList
      ((Fault.illegalChar '\x1b').inSpan ⟨0, 8⟩) = some coloured := ⟨_, rfl⟩
  obtain ⟨plain, hplain, herased, hescape, _⟩ := hrender "[31m\t0\n;m".toList
    ((Fault.illegalChar '\x1b').inSpan ⟨0, 8⟩) (by decide) hmessage coloured hcoloured
  exact ⟨htotal, coloured, plain, hcoloured, hplain, herased, hescape⟩

end Report

end RomanInvoice
