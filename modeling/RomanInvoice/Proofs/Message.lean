import RomanInvoice.Proofs.Blame
import RomanInvoice.Proofs.Report.Drawing
import RomanInvoice.Proofs.Stages

/-!
# Messages — what an expression can put into a message

A message is a fixed wording, in which there may be numbers, and behind it an excerpt of what was
refused. For the faults of an expression the excerpt is no more than one character that is no blank,
in quotes, or a run of figures (`Excerpt.TakenFrom`). Quotes show a control as an escape, and
figures are printable; so nothing in an expression can end the line of a message or hide in it.
-/

namespace RomanInvoice

/-! ## Characters within a line -/

/-- Whether a character is of the category of controls. -/
def isControl (c : Char) : Bool :=
  c.toNat < 0x20 || 0x7f ≤ c.toNat && c.toNat ≤ 0x9f

/-- A character that is neither a control nor a blank, or is the space. -/
def Inline (c : Char) : Prop :=
  isControl c = false ∧ (isBlank c → c = ' ')

/-- A character of ASCII that is no control, and not the bracket with which codes and colours
begin. -/
def Plain (c : Char) : Prop :=
  0x20 ≤ c.toNat ∧ c.toNat < 0x7f ∧ c ≠ '['

instance (c : Char) : Decidable (Plain c) :=
  inferInstanceAs (Decidable (_ ∧ _))

/-- A text of plain characters. -/
def PlainText (text : String) : Prop :=
  ∀ c ∈ text.toList, Plain c

instance (text : String) : Decidable (PlainText text) :=
  List.decidableBAll Plain text.toList

theorem PlainText.append {a b : String} (ha : PlainText a) (hb : PlainText b) :
    PlainText (a ++ b) := by
  unfold PlainText
  rw [String.toList_append]
  exact List.forall_mem_append.2 ⟨ha, hb⟩

theorem Plain.inline {c : Char} (h : Plain c) : Inline c := by
  obtain ⟨hlow, hhigh, _⟩ := h
  refine ⟨?_, fun hblank => ?_⟩
  · simp only [isControl, Bool.or_eq_false_iff, Bool.and_eq_false_iff, decide_eq_false_iff_not]
    omega
  · have hspace := isBlank_iff.1 hblank
    exact Char.toNat_inj.1 (show c.toNat = 0x20 by omega)

theorem plain_of_isDigit {c : Char} (h : c.isDigit) : Plain c := by
  have hrange := isDigit_iff.1 h
  refine ⟨by omega, by omega, ?_⟩
  rintro rfl
  exact absurd h (by decide)

theorem isBlank_of_endsLine {c : Char} (h : endsLine c) : isBlank c := by
  have hall : ['\n', '\x0b', '\x0c', '\r', '\u0085', '\u2028', '\u2029'].all isBlank := by decide
  exact List.all_eq_true.1 hall c (of_decide_eq_true h)

theorem Inline.endsLine_eq_false {c : Char} (h : Inline c) : endsLine c = false := by
  rw [← Bool.not_eq_true]
  intro hends
  obtain rfl := h.2 (isBlank_of_endsLine hends)
  exact absurd hends (by decide)

/-! ## Quoted characters -/

theorem exists_digitChar_of_mem_toDigits {n : Nat} {d : Char} (h : d ∈ Nat.toDigits 16 n) :
    ∃ k < 16, d = k.digitChar := by
  induction n using Nat.strong_induction_on with
  | h n ih =>
    rw [Nat.toDigits_eq_if (by decide)] at h
    split at h
    · next hlt => exact ⟨n, hlt, List.mem_singleton.1 h⟩
    · rcases List.mem_append.1 h with h | h
      · exact ih (n / 16) (by omega) h
      · exact ⟨n % 16, by omega, List.mem_singleton.1 h⟩

theorem plainText_hexadecimal (n : Nat) : PlainText (hexadecimal n) := by
  intro d hd
  rw [hexadecimal, String.toList_ofList] at hd
  obtain ⟨k, hk, rfl⟩ := exists_digitChar_of_mem_toDigits hd
  have hall : ∀ k < 16, Plain k.digitChar := by decide
  exact hall k hk

/-- The controls are the first that have no form of their own. -/
theorem isControl_of_isShown {c : Char} (h : isShown c) : isControl c = false := by
  rw [← Bool.not_eq_true]
  intro hcontrol
  have hrange : c.toNat < 0x20 ∨ 0x7f ≤ c.toNat ∧ c.toNat ≤ 0x9f := by
    simpa [isControl] using hcontrol
  obtain ⟨rest, hrest⟩ : ∃ rest, unprintedRanges = (0x0, 0x1f) :: (0x7f, 0xa0) :: rest := ⟨_, rfl⟩
  have hunprinted : unprintedRanges.holds c := by
    simp only [CodeRanges.holds, hrest, CodeRanges.covers, Bool.and_eq_true, Bool.or_eq_true,
      decide_eq_true_eq]
    omega
  simp [isShown, hunprinted] at h

/-- In quotes a character stands as it is, if it has a form of its own, or is spelled out. -/
theorem quoteChar_shown_or_plain (c : Char) :
    isShown c ∧ (quoteChar c).toList = ['\'', c, '\''] ∨ PlainText (quoteChar c) := by
  have hquoted {text : String} (h : PlainText text) : PlainText ("'" ++ text ++ "'") :=
    ((show PlainText "'" by decide).append h).append (by decide)
  unfold quoteChar escapeChar
  split
  case h_7 =>
    split
    · next hshown => exact .inl ⟨hshown, by simp⟩
    · have hbrace : PlainText "\\u\x7b" := by decide
      exact .inr (hquoted ((hbrace.append (plainText_hexadecimal _)).append (by decide)))
  all_goals exact .inr (hquoted (by decide))

theorem mem_quoteChar {c d : Char} (h : d ∈ (quoteChar c).toList) :
    Plain d ∨ d = c ∧ isShown c := by
  rcases quoteChar_shown_or_plain c with ⟨hshown, hquote⟩ | hplain
  · rw [hquote] at h
    rcases List.mem_cons.1 h with rfl | h
    · exact .inl (by decide)
    · rcases List.mem_cons.1 h with rfl | h
      · exact .inr ⟨rfl, hshown⟩
      · exact .inl (List.mem_singleton.1 h ▸ by decide)
  · exact .inl (hplain d h)

theorem inline_of_mem_quoteChar {c d : Char} (hblank : isBlank c = false)
    (h : d ∈ (quoteChar c).toList) : Inline d := by
  rcases mem_quoteChar h with hplain | ⟨rfl, hshown⟩
  · exact hplain.inline
  · exact ⟨isControl_of_isShown hshown, fun h => by simp [hblank] at h⟩

/-! ## Excerpts -/

/-- What a message shows of what was refused. -/
inductive Excerpt where
  | nothing
  | quoted (c : Char)
  | verbatim (text : Text)
  deriving DecidableEq, Repr

namespace Excerpt

/-- The written form of an excerpt. -/
def written : Excerpt → String
  | nothing => ""
  | quoted c => quoteChar c
  | verbatim text => String.ofList text

/-- What may be shown of an expression: one character that is no blank, digits that stand in it, or
the capitals of Roman letters that stand in it. -/
inductive TakenFrom (text : Text) : Excerpt → Prop where
  | nothing : TakenFrom text .nothing
  | quoted {c : Char} : c ∈ text → isBlank c = false → TakenFrom text (.quoted c)
  | digits {run : Text} : run <:+: text → (∀ c ∈ run, c.isDigit) → TakenFrom text (.verbatim run)
  | letters {run capitals : Text} : run <:+: text → run.map Roman.capitalized = capitals →
    (∀ c ∈ capitals, c ∈ "IVXLCDM".toList) → TakenFrom text (.verbatim capitals)

/-- What is not quoted is figures. -/
theorem TakenFrom.quoted_or_plain {text : Text} {excerpt : Excerpt} (h : excerpt.TakenFrom text) :
    (∃ c, excerpt = .quoted c ∧ isBlank c = false) ∨ PlainText excerpt.written := by
  cases h with
  | nothing => exact .inr (by decide)
  | quoted _ hblank => exact .inl ⟨_, rfl, hblank⟩
  | digits _ hdigits =>
    rw [written, PlainText, String.toList_ofList]
    exact .inr fun c hc => plain_of_isDigit (hdigits c hc)
  | letters _ _ hcapitals =>
    have hall : PlainText "IVXLCDM" := by decide
    rw [written, PlainText, String.toList_ofList]
    exact .inr fun c hc => hall c (hcapitals c hc)

theorem TakenFrom.inline {text : Text} {excerpt : Excerpt} (h : excerpt.TakenFrom text) :
    ∀ c ∈ excerpt.written.toList, Inline c := by
  rcases h.quoted_or_plain with ⟨c, rfl, hblank⟩ | hplain
  · exact fun d hd => inline_of_mem_quoteChar hblank hd
  · exact fun c hc => (hplain c hc).inline

/-- The run of a number may be shown as it stands in a token. -/
theorem takenFrom_of_spells {text run : Text} {number : Number} (h : number.Spells run)
    (hrun : run <:+: text) : TakenFrom text (.verbatim (run.map Roman.capitalized)) := by
  cases h with
  | decimal _ digital =>
    rw [List.map_congr_left fun c hc => Roman.capitalized_of_isDigit (digital c hc), List.map_id']
    exact .digits hrun digital
  | @roman letters nonempty hmap =>
    have hspells : (Lexeme.numeral _).Spells run := .number (.roman nonempty hmap)
    refine .letters hrun rfl ?_
    rw [← hspells.text_eq]
    intro c hc
    obtain ⟨letter, _, rfl⟩ := List.mem_map.1 hc
    cases letter <;> decide

end Excerpt

namespace Fault

/-- The words of a message, with its numbers and without its excerpt. -/
def wording : Fault → String
  | illegalChar _ => "Illegal character in expression: "
  | badNumeral _ => "Invalid number token: "
  | badRomanLetter _ => "Invalid Roman numeral character: "
  | operatorExpected _ => "Expected operator, found "
  | fault => fault.message

/-- What a message shows of what was refused. -/
def excerpt : Fault → Excerpt
  | illegalChar c => .quoted c
  | badNumeral text | operatorExpected text => .verbatim text
  | badRomanLetter c => .verbatim [c]
  | _ => .nothing

theorem message_eq (fault : Fault) : fault.message = fault.wording ++ fault.excerpt.written := by
  cases fault with
  | illegalChar | badNumeral | badRomanLetter | operatorExpected => rfl
  | _ => exact String.append_empty.symm

theorem plainText_wording (fault : Fault) : PlainText fault.wording := by
  have hnumber (n : Nat) : PlainText (toString n) :=
    fun c hc => plain_of_isDigit (isDigit_of_mem_repr hc)
  cases fault with
  | tooLong length maxLength =>
    have hfirst : PlainText "Expression too long: " := by decide
    have hsecond : PlainText " characters exceeds maximum of " := by decide
    exact ((hfirst.append (hnumber length)).append hsecond).append (hnumber maxLength)
  | tooManyTokens count maxTokens =>
    have hfirst : PlainText "Too many tokens: " := by decide
    have hsecond : PlainText " exceeds maximum of " := by decide
    exact ((hfirst.append (hnumber count)).append hsecond).append (hnumber maxTokens)
  | _ =>
    dsimp only [wording, message]
    decide

theorem plainText_code (fault : Fault) : PlainText fault.code := by
  cases fault <;> dsimp only [code] <;> decide

theorem plainText_help (fault : Fault) {help : String} (h : fault.help? = some help) :
    PlainText help := by
  cases fault <;> cases h <;> decide

theorem inline_message {fault : Fault} {text : Text} (h : fault.excerpt.TakenFrom text) :
    ∀ c ∈ fault.message.toList, Inline c := by
  rw [message_eq, String.toList_append]
  exact List.forall_mem_append.2
    ⟨fun c hc => (fault.plainText_wording c hc).inline, h.inline⟩

end Fault

/-! ## Messages in a report -/

namespace Report

theorem inline_of_frame {c : Char} (h : c = '[' ∨ c.isDigit ∨ c ∈ frame) : Inline c := by
  rcases h with rfl | hdigit | hframe
  · exact ⟨by decide, fun hblank => absurd hblank (by decide)⟩
  · exact (plain_of_isDigit hdigit).inline
  · have hall : frame.all fun c => !isControl c && (!isBlank c || c = ' ') := by decide
    simpa [Inline, or_iff_not_imp_left] using List.all_eq_true.1 hall c hframe

variable {P : Char → Prop} {source : Text} {rejection : Rejection} {report : Report}

/-- A report is within a class that has the characters of lines, if its message and the source are;
for the rest of it comes from no one's input. -/
theorem holds_of_inline (hinline : ∀ c, Inline c → P c)
    (hmessage : ∀ c ∈ rejection.fault.message.toList, P c)
    (hsource : ∀ c ∈ source, isBlank c = false → P c) : Holds P source rejection.diagnosis where
  frame c hc := hinline c (inline_of_frame hc)
  code c hc := hinline c (rejection.fault.plainText_code c hc).inline
  message := hmessage
  help _ hhelp c hc := hinline c (rejection.fault.plainText_help hhelp c hc).inline
  source := hsource

theorem display_diagnosis (rejection : Rejection) : rejection.diagnosis.display =
    "error: " ++ rejection.fault.message ++ " [" ++ rejection.fault.code ++ "]" ++
      (rejection.fault.help?.map ("\nhelp: " ++ ·)).getD "" := by
  unfold Diagnosis.display
  rw [show rejection.diagnosis.help? = rejection.fault.help? from rfl]
  cases rejection.fault.help? <;> rfl

/-- The help is on a line of its own. -/
theorem mem_help {fault : Fault} {c : Char}
    (h : c ∈ ((fault.help?.map ("\nhelp: " ++ ·)).getD "").toList) : c = '\n' ∨ Plain c := by
  cases hhelp : fault.help? with
  | none => simp [hhelp] at h
  | some help =>
    have hword : PlainText "help: " := by decide
    have hline : ("\nhelp: " ++ help).toList = '\n' :: ("help: " ++ help).toList := by simp
    rw [hhelp, Option.map_some, Option.getD_some, hline] at h
    exact (List.mem_cons.1 h).imp_right (hword.append (fault.plainText_help hhelp) c)

/-- A diagnosis is one line, and its help another. -/
theorem lines_display (h : ∀ c ∈ rejection.fault.message.toList, Inline c) :
    ∃ rest, Text.lines (rejection.diagnosis.display ++ "\n").toList =
      ("error: " ++ rejection.fault.message ++ " [" ++ rejection.fault.code ++ "]\n").toList ::
        rest := by
  have hplain {text : String} (htext : PlainText text) : ∀ c ∈ text.toList, endsLine c = false :=
    fun c hc => (htext c hc).inline.endsLine_eq_false
  have hbracket : " [".toList.all (!endsLine ·) := by decide
  have hline : ∀ c ∈ ("error: " ++ rejection.fault.message ++ " [" ++ rejection.fault.code ++
      "]").toList, endsLine c = false := by
    simp only [String.toList_append, List.forall_mem_append]
    exact ⟨⟨⟨⟨hplain (by decide), fun c hc => (h c hc).endsLine_eq_false⟩,
      by simpa using List.all_eq_true.1 hbracket⟩, hplain rejection.fault.plainText_code⟩,
      hplain (by decide)⟩
  obtain ⟨help, hdisplay⟩ : ∃ help : Text, (rejection.diagnosis.display ++ "\n").toList =
      ("error: " ++ rejection.fault.message ++ " [" ++ rejection.fault.code ++ "]").toList ++
        '\n' :: help := by
    rw [display_diagnosis]
    cases rejection.fault.help? with
    | none => exact ⟨[], by simp⟩
    | some help => exact ⟨("help: " ++ help ++ "\n").toList, by simp⟩
  refine ⟨Text.lines help, ?_⟩
  rw [hdisplay, Text.lines_append_feed hline]
  simp

/-- Rows are lines, and the message is whole in the first of them. -/
theorem exists_lines_write (hreport : ofRejection? source rejection = some report)
    (hmessage : ∀ c ∈ rejection.fault.message.toList, Inline c) (style : Style) :
    (∃ line rest, Text.lines (report.write style).toList = line :: rest ∧
      rejection.fault.message.toList <:+: line) ∧
    (source ≠ [] → Text.lines (report.write style).toList =
      report.rows.map fun row => (row.write style).toList) := by
  by_cases hsource : source = []
  · subst hsource
    obtain rfl := eq_of_ofRejection?_nil hreport
    obtain ⟨rest, hlines⟩ := lines_display hmessage
    rw [write_bare, hlines]
    refine ⟨⟨_, rest, rfl, ?_⟩, fun hne => absurd rfl hne⟩
    simp only [String.toList_append, List.append_assoc]
    exact List.infix_append' _ _ _
  · obtain ⟨label, rfl⟩ := exists_draw_of_ofRejection? hsource hreport
    have hholds : Holds (endsLine · = false) source rejection.diagnosis := by
      refine holds_of_inline (fun c hc => hc.endsLine_eq_false)
        (fun c hc => (hmessage c hc).endsLine_eq_false) fun c _ hblank => ?_
      rw [← Bool.not_eq_true] at hblank ⊢
      exact mt isBlank_of_endsLine hblank
    have hlines : Text.lines ((draw source rejection.diagnosis label).write style).toList = _ :=
      lines_write (hholds.draw label)
    obtain ⟨rows, hrows, _⟩ := exists_rows_draw source rejection.diagnosis label
    refine ⟨⟨_, _, by rw [hlines, hrows, List.map_cons], ?_⟩, fun _ => hlines⟩
    have hbare : Piece.bare (" " ++ rejection.fault.message) ∈
        [heading rejection.diagnosis, .bare (" " ++ rejection.fault.message)] := by simp
    calc rejection.fault.message.toList
        <:+: (" " ++ rejection.fault.message).toList := by
          rw [String.toList_append]
          exact (List.suffix_append _ _).isInfix
      _ <:+: written style [heading rejection.diagnosis, .bare (" " ++ rejection.fault.message)] :=
          infix_written hbare
      _ <:+: written style _ ++ ['\n'] := (List.prefix_append _ _).isInfix
      _ = _ := (toList_write_row _).symm

end Report

/-! ## Messages of expressions -/

namespace Expression

variable {limits : Limits} {text : Text} {rejection : Rejection}

/-- A character is only found illegal where it stands, and blanks are legal. -/
theorem mem_of_illegalChar {c : Char} {span? : Option Span}
    (h : total limits text = .error ⟨.illegalChar c, span?⟩) : c ∈ text ∧ isBlank c = false := by
  rcases tokens_or_total_error h with h | ⟨ts, hts, h⟩
  · obtain ⟨result, hverdict⟩ := exists_verdict limits text
    obtain rfl := (tokens_eq_of_verdict hverdict).symm.trans h
    cases hverdict with
    | illegal _ htext _ hc =>
      exact ⟨by simp [htext], by simpa using fun hblank => hc (.inl hblank)⟩
  · rcases Token.stage?_of_total_error h with ⟨_, hrejection⟩ | hstage
    · cases hrejection
    · cases hstage

/-- The excerpt in a message is taken from the expression. -/
theorem takenFrom_of_total_error (h : total limits text = .error rejection) :
    rejection.fault.excerpt.TakenFrom text := by
  obtain ⟨fault, span?⟩ := rejection
  cases fault with
  | illegalChar c =>
    obtain ⟨hmem, hblank⟩ := mem_of_illegalChar h
    exact .quoted hmem hblank
  | badNumeral figures =>
    obtain ⟨⟨a, b, rfl, _, hdigits, _⟩, _⟩ := digitRun_of_badNumeral h
    exact .digits (List.infix_append a figures b) hdigits
  | badRomanLetter c => rcases stage?_of_total_error h with hstage | hstage <;> cases hstage
  | operatorExpected found =>
    have hplaced := placed_of_total_error h
    cases span? with
    | none =>
      obtain ⟨_, _, hlength⟩ := hplaced
      cases hlength
    | some span =>
      obtain ⟨run, hslice, ⟨number, hnumber⟩, rfl⟩ := hplaced.shows
      obtain ⟨a, b, rfl, _⟩ := Span.slice?_eq_some_iff.1 hslice
      exact Excerpt.takenFrom_of_spells hnumber (List.infix_append a run b)
  | _ => exact .nothing

/-- **No expression gets a control into a message**: the message of a rejection, alone and in its
display, keeps to one line. It is the wording of the fault with an excerpt of the expression, which
is nothing, a quoted character that is no blank, or a run of figures. So wherever the rejection is
reported the message is whole in the first line, and rows and lines of the report are the same. -/
theorem message_within_line (h : total limits text = .error rejection) :
    (∀ c ∈ rejection.diagnosis.message.toList, Inline c) ∧
    (∀ c ∈ rejection.display.toList, Inline c) ∧
    rejection.diagnosis.message = rejection.fault.wording ++ rejection.fault.excerpt.written ∧
    rejection.fault.excerpt.TakenFrom text ∧
    ∀ source report, Report.ofRejection? source rejection = some report → ∀ style,
      (∃ line rest, Text.lines (report.write style).toList = line :: rest ∧
        rejection.diagnosis.message.toList <:+: line) ∧
      (source ≠ [] → Text.lines (report.write style).toList =
        report.rows.map fun row => (row.write style).toList) := by
  have htaken := takenFrom_of_total_error h
  have hmessage := Fault.inline_message htaken
  rw [show rejection.diagnosis.message = rejection.fault.message from rfl]
  have hdisplay : ∀ c ∈ rejection.display.toList, Inline c := by
    have hwords : PlainText "invoice format error: " := by decide
    show ∀ c ∈ ("invoice format error: " ++ rejection.fault.message).toList, Inline c
    rw [String.toList_append]
    exact List.forall_mem_append.2 ⟨fun c hc => (hwords c hc).inline, hmessage⟩
  exact ⟨hmessage, hdisplay, rejection.fault.message_eq, htaken,
    fun source report hreport style => Report.exists_lines_write hreport hmessage style⟩

/-- An escape sequence that would clear a screen, in an expression of two lines. -/
theorem message_within_line_escape :
    total {} "1 +\n\x1b[2J".toList = .error ((Fault.illegalChar '\x1b').inSpan ⟨4, 5⟩) ∧
      (∀ c ∈ (Fault.illegalChar '\x1b').message.toList, Inline c) ∧
      (Fault.illegalChar '\x1b').message = "Illegal character in expression: '\\u\x7b1b\x7d'" ∧
      ∃ report, Report.ofRejection? "1 +\n\x1b[2J".toList
          ((Fault.illegalChar '\x1b').inSpan ⟨4, 5⟩) = some report ∧
        Text.lines (report.write .coloured).toList =
          report.rows.map fun row => (row.write .coloured).toList := by
  have h : total {} "1 +\n\x1b[2J".toList =
      .error ((Fault.illegalChar '\x1b').inSpan ⟨4, 5⟩) := rfl
  obtain ⟨hmessage, _, _, _, hlines⟩ := message_within_line h
  obtain ⟨report, hreport⟩ : ∃ report, Report.ofRejection? "1 +\n\x1b[2J".toList
      ((Fault.illegalChar '\x1b').inSpan ⟨4, 5⟩) = some report := ⟨_, rfl⟩
  exact ⟨h, hmessage, by decide, report, hreport, (hlines _ _ hreport .coloured).2 (by decide)⟩

end Expression

end RomanInvoice
