import Mathlib.Data.List.Chain
import RomanInvoice.Proofs.Message
import RomanInvoice.Proofs.Report.Label
import RomanInvoice.Proofs.Switches

/-!
# Codes — which faults a run has reports on

A report shows the code of its fault in brackets, and codes begin with an `F`. In the report of an
expression no other bracket has an `F` behind it, whatever the expression is: its characters stand
between colours, and a message quotes one at most. So the codes in what a run writes are those of
the expressions that it refuses (`Options.infix_stderr_iff`).
-/

namespace RomanInvoice

/-! ## Texts without a code -/

/-- A text in which no bracket has an `F` behind it, and which does not end with a bracket. -/
def Text.Unmarked (text : Text) : Prop :=
  text.IsChain (fun c d => c = '[' → d ≠ 'F') ∧ text.getLast? ≠ some '['

namespace Text

variable {text a b : Text}

instance (text : Text) : Decidable text.Unmarked :=
  inferInstanceAs (Decidable (_ ∧ _))

theorem Unmarked.append (ha : a.Unmarked) (hb : b.Unmarked) : (a ++ b).Unmarked := by
  refine ⟨List.isChain_append.2 ⟨ha.1, hb.1, ?_⟩, ?_⟩
  · rintro c hc d _ rfl
    exact absurd hc ha.2
  · rw [List.getLast?_append]
    cases hlast : b.getLast? with
    | none => simpa using ha.2
    | some c => simpa [hlast] using hb.2

theorem unmarked_of_notMem (h : '[' ∉ text) : text.Unmarked := by
  refine ⟨List.isChain_iff_forall_rel_of_append_cons_cons.2 ?_, fun hlast => ?_⟩
  · rintro c d front rest rfl rfl
    exact absurd (List.mem_append_right _ List.mem_cons_self) h
  · exact h (List.mem_of_getLast? hlast)

/-- Of a character with a text behind it only the first character of the text matters. -/
theorem Unmarked.cons_cons {c d : Char} (hd : d ≠ 'F') (h : Unmarked (d :: text)) :
    Unmarked (c :: d :: text) :=
  ⟨List.isChain_cons_cons.2 ⟨fun _ => hd, h.1⟩, by simpa [List.getLast?_cons_cons] using h.2⟩

theorem unmarked_flatMap {α : Type} {f : α → Text} {values : List α}
    (h : ∀ value ∈ values, (f value).Unmarked) : Unmarked (values.flatMap f) := by
  induction values with
  | nil => exact unmarked_of_notMem List.not_mem_nil
  | cons value values ih =>
    obtain ⟨hvalue, hvalues⟩ := List.forall_mem_cons.1 h
    exact hvalue.append (ih hvalues)

theorem Unmarked.ne_append (h : text.Unmarked) (front rest : Text) :
    text ≠ front ++ '[' :: 'F' :: rest :=
  fun heq => List.isChain_iff_forall_rel_of_append_cons_cons.1 h.1 heq rfl rfl

/-- Where a code stands behind an unmarked text, no other one comes before it. -/
theorem Unmarked.append_eq (ha : a.Unmarked) {front x y : Text}
    (h : front ++ '[' :: 'F' :: x = a ++ '[' :: 'F' :: y) :
    x = y ∨ ∃ gap, y = gap ++ '[' :: 'F' :: x := by
  rcases List.append_eq_append_iff.1 h with ⟨gap, rfl, hgap⟩ | ⟨gap, rfl, hgap⟩
  · match gap with
    | [] => exact .inl (by simpa using hgap)
    | [c] => simp at hgap
    | c :: d :: gap =>
      obtain ⟨rfl, rfl, _⟩ : '[' = c ∧ 'F' = d ∧ _ := by simpa using hgap
      exact absurd rfl (ha.ne_append front gap)
  · match gap with
    | [] => exact .inl (by simpa using hgap.symm)
    | [c] => simp at hgap
    | c :: d :: gap =>
      obtain ⟨_, _, hy⟩ : '[' = c ∧ 'F' = d ∧ _ := by simpa using hgap
      exact .inr ⟨gap, hy⟩

end Text

/-! ## Texts with codes -/

/-- A code as it is shown. -/
def Fault.mark (fault : Fault) : Text :=
  ("[" ++ fault.code ++ "]").toList

/-- A code is an `F` with a number of three digits. -/
theorem Fault.exists_mark_eq (fault : Fault) : ∃ number : Text,
    fault.code.toList = 'F' :: number ∧ fault.mark = '[' :: 'F' :: (number ++ [']']) ∧
      number.length = 3 ∧ '[' ∉ number := by
  refine ⟨fault.code.toList.tail, ?_⟩
  cases fault <;> dsimp only [mark, code] <;> decide

/-- `Marks faults text`: the codes that are shown in a text are, in this order, those of the
faults. -/
inductive Marks : List Fault → Text → Prop where
  | unmarked {text : Text} : text.Unmarked → Marks [] text
  | mark {front rest : Text} {fault : Fault} {faults : List Fault} : front.Unmarked →
    Marks faults rest → Marks (fault :: faults) (front ++ fault.mark ++ rest)

namespace Marks

variable {faults others : List Fault} {a b text : Text}

theorem append (ha : Marks faults a) (hb : Marks others b) : Marks (faults ++ others) (a ++ b) := by
  induction ha with
  | unmarked ha =>
    cases hb with
    | unmarked hb => exact .unmarked (ha.append hb)
    | mark hfront hrest =>
      rw [← List.append_assoc, ← List.append_assoc]
      exact .mark (ha.append hfront) hrest
  | mark hfront _ ih =>
    rw [List.append_assoc]
    exact .mark hfront ih

/-- A code that is shown somewhere is one of those that the text is said to show. -/
theorem exists_of_infix (h : Marks faults text) {fault : Fault} (hmark : fault.mark <:+: text) :
    ∃ other ∈ faults, other.code = fault.code := by
  obtain ⟨number, hcode, hmarkeq, hlength, _⟩ := fault.exists_mark_eq
  induction h with
  | unmarked hunmarked =>
    obtain ⟨front, rest, htext⟩ := hmark
    rw [hmarkeq, List.append_assoc] at htext
    exact absurd htext.symm (hunmarked.ne_append front _)
  | @mark front rest other faults hfront _ ih =>
    obtain ⟨number', hcode', hmarkeq', hlength', hnumber'⟩ := other.exists_mark_eq
    obtain ⟨front', rest', htext⟩ := hmark
    have hcodes : front' ++ '[' :: 'F' :: (number ++ ']' :: rest') =
        front ++ '[' :: 'F' :: (number' ++ ']' :: rest) := by
      rw [hmarkeq, hmarkeq'] at htext
      simpa using htext
    rcases hfront.append_eq hcodes with hsame | ⟨gap, hgap⟩
    · obtain ⟨rfl, _⟩ := List.append_inj hsame (hlength.trans hlength'.symm)
      exact ⟨other, List.mem_cons_self, String.toList_inj.1 (hcode'.trans hcode.symm)⟩
    · -- there is no bracket in a code, so this one stands behind it
      have hgap : (number' ++ [']']) ++ rest = gap ++ '[' :: ('F' :: (number ++ ']' :: rest')) := by
        simpa using hgap
      rcases Text.append_eq_append_cons hgap with ⟨x, _, hrest⟩ | ⟨x, hx⟩
      · obtain ⟨found, hfound, hfoundcode⟩ := ih ⟨x, rest', by simp [hmarkeq, hrest]⟩
        exact ⟨found, List.mem_cons_of_mem other hfound, hfoundcode⟩
      · have hmem : '[' ∈ number' ++ [']'] := hx ▸ List.mem_append_right _ List.mem_cons_self
        simp [hnumber'] at hmem

theorem infix_iff (h : Marks faults text) {fault : Fault} :
    fault.mark <:+: text ↔ ∃ other ∈ faults, other.code = fault.code := by
  refine ⟨h.exists_of_infix, ?_⟩
  rintro ⟨other, hother, hcode⟩
  have hmark : fault.mark = other.mark := by rw [Fault.mark, Fault.mark, hcode]
  rw [hmark]
  clear hcode hmark
  induction h with
  | unmarked => cases hother
  | @mark front rest first faults _ _ ih =>
    rcases List.mem_cons.1 hother with rfl | hother
    · exact List.infix_append _ _ _
    · exact List.infix_append_of_infix_right (ih hother)

end Marks

/-! ## The code of a report -/

theorem PlainText.unmarked {text : String} (h : PlainText text) : Text.Unmarked text.toList :=
  Text.unmarked_of_notMem fun hmem => (h _ hmem).2.2 rfl

/-- A quoted character has a quote behind it, and no `F`. -/
theorem Excerpt.TakenFrom.unmarked {excerpt : Excerpt} {text : Text}
    (h : excerpt.TakenFrom text) : Text.Unmarked excerpt.written.toList := by
  rcases h.quoted_or_plain with ⟨c, rfl, _⟩ | hplain
  · rcases quoteChar_shown_or_plain c with ⟨_, hquote⟩ | hplain
    · have hfront : Text.Unmarked ['\''] := by decide
      have hbehind : Text.Unmarked [c, '\''] := .cons_cons (by decide) (by decide)
      rw [written, hquote]
      exact hfront.append hbehind
    · exact hplain.unmarked
  · exact hplain.unmarked

theorem Fault.unmarked_message {fault : Fault} {text : Text} (h : fault.excerpt.TakenFrom text) :
    Text.Unmarked fault.message.toList := by
  rw [message_eq, String.toList_append]
  exact fault.plainText_wording.unmarked.append h.unmarked

namespace Report

variable {source : Text} {rejection : Rejection} {report : Report}

/-- Between colours a text is unmarked, if it is so before the sequence that ends them. -/
theorem unmarked_write_ink (ink : Ink) {text : String}
    (h : Text.Unmarked (text.toList ++ "\x1b[0m".toList)) :
    Text.Unmarked ((ink.write text).write .coloured).toList := by
  have hcolour : Text.Unmarked ("\x1b[" ++ ink.colour ++ "m").toList := by
    cases ink <;> dsimp only [Ink.colour] <;> decide
  show Text.Unmarked ("\x1b[" ++ ink.colour ++ "m" ++ text ++ "\x1b[0m").toList
  rw [String.toList_append, String.toList_append, List.append_assoc]
  exact hcolour.append h

theorem unmarked_of_framed {text : String} (h : Framed text) : Text.Unmarked text.toList := by
  refine Text.unmarked_of_notMem fun hmem => ?_
  rcases h _ hmem with hdigit | hframe
  · exact absurd hdigit (by decide)
  · exact absurd hframe (by decide)

/-- Behind the heading of a report there is no code. -/
theorem unmarked_write {piece : Piece} (hmessage : Text.Unmarked rejection.fault.message.toList)
    (h : Drawn source rejection.diagnosis piece) :
    Text.Unmarked (piece.write .coloured).toList := by
  have hsingle (c : Char) : Text.Unmarked (c.toString.toList ++ "\x1b[0m".toList) := by
    have hreset : Text.Unmarked ('\x1b' :: "[0m".toList) := by decide
    have htext : c.toString.toList ++ "\x1b[0m".toList = c :: '\x1b' :: "[0m".toList := by simp
    rw [htext]
    exact .cons_cons (by decide) hreset
  have hspace : Text.Unmarked " ".toList := by decide
  cases h with
  | message =>
    show Text.Unmarked (" " ++ rejection.fault.message).toList
    rw [String.toList_append]
    exact hspace.append hmessage
  | @help help hhelp =>
    have hcolon : Text.Unmarked ": ".toList := by decide
    show Text.Unmarked (": " ++ help).toList
    rw [String.toList_append]
    exact hcolon.append (rejection.fault.plainText_help hhelp).unmarked
  | glyph ink _ _ => exact unmarked_write_ink ink (hsingle _)
  | corner => exact unmarked_write_ink .border (hsingle '[')
  | frame htext =>
    obtain ⟨ink?, text⟩ := piece
    cases ink? with
    | none => exact unmarked_of_framed htext
    | some ink => exact unmarked_write_ink ink ((unmarked_of_framed htext).append (by decide))

/-- Of an empty source the report is the display, with the code behind the message. -/
theorem marks_display (hmessage : Text.Unmarked rejection.fault.message.toList) :
    Marks [rejection.fault] (rejection.diagnosis.display ++ "\n").toList := by
  have herror : Text.Unmarked "error: ".toList := by decide
  have hspace : Text.Unmarked " ".toList := by decide
  have hhelp : Text.Unmarked
      ((rejection.fault.help?.map ("\nhelp: " ++ ·)).getD "" ++ "\n").toList := by
    refine Text.unmarked_of_notMem fun hmem => ?_
    rw [String.toList_append, List.mem_append] at hmem
    rcases hmem with hmem | hfeed
    · rcases mem_help hmem with heq | hplain
      · cases heq
      · exact hplain.2.2 rfl
    · exact absurd hfeed (by decide)
  have htext : (rejection.diagnosis.display ++ "\n").toList =
      ("error: ".toList ++ rejection.fault.message.toList ++ " ".toList) ++ rejection.fault.mark ++
        ((rejection.fault.help?.map ("\nhelp: " ++ ·)).getD "" ++ "\n").toList := by
    rw [display_diagnosis]
    simp [Fault.mark]
  rw [htext]
  exact .mark ((herror.append hmessage).append hspace) (.unmarked hhelp)

theorem unmarked_write_row {row : Row} (hmessage : Text.Unmarked rejection.fault.message.toList)
    (h : DrawnRow source rejection.diagnosis row) :
    Text.Unmarked (row.write .coloured).toList := by
  have hfeed : Text.Unmarked ['\n'] := by decide
  rw [toList_write_row]
  exact (Text.unmarked_flatMap fun piece hpiece =>
    unmarked_write hmessage (h piece hpiece)).append hfeed

/-- The code of a drawing is in its heading. -/
theorem marks_draw (hmessage : Text.Unmarked rejection.fault.message.toList) (label : Label) :
    Marks [rejection.fault] ((draw source rejection.diagnosis label).write .coloured).toList := by
  obtain ⟨rows, hrows, hdrawn⟩ := exists_rows_draw source rejection.diagnosis label
  have hcolour : Text.Unmarked "\x1b[31m".toList := by decide
  have herror : Text.Unmarked " Error:\x1b[0m".toList := by decide
  have hspoken : Text.Unmarked
      (Row.write .coloured [.bare (" " ++ rejection.fault.message)]).toList :=
    unmarked_write_row hmessage (drawnRow_message : DrawnRow source rejection.diagnosis _)
  have hbelow : Text.Unmarked (rows.flatMap fun row => (Row.write .coloured row).toList) :=
    Text.unmarked_flatMap fun row hrow => unmarked_write_row hmessage (hdrawn row hrow)
  have hfirst : (Row.write .coloured [heading rejection.diagnosis,
      .bare (" " ++ rejection.fault.message)]).toList = "\x1b[31m".toList ++ rejection.fault.mark ++
        (" Error:\x1b[0m".toList ++
          (Row.write .coloured [.bare (" " ++ rejection.fault.message)]).toList) := by
    rw [toList_write_row, toList_write_row]
    show ("\x1b[" ++ "31" ++ "m" ++ ("[" ++ rejection.fault.code ++ "] Error:") ++
      "\x1b[0m").toList ++ ((" " ++ rejection.fault.message).toList ++ []) ++ ['\n'] =
        _ ++ (_ ++ ((" " ++ rejection.fault.message).toList ++ [] ++ ['\n']))
    simp [Fault.mark]
  rw [toList_write, hrows, List.flatMap_cons]
  show Marks _ ((Row.write .coloured [heading rejection.diagnosis,
    .bare (" " ++ rejection.fault.message)]).toList ++ _)
  rw [hfirst, List.append_assoc]
  exact .mark hcolour (.unmarked ((herror.append hspoken).append hbelow))

/-- **A report shows the code of its fault, and no other.** -/
theorem marks_write (hreport : ofRejection? source rejection = some report)
    (hmessage : Text.Unmarked rejection.fault.message.toList) :
    Marks [rejection.fault] (report.write .coloured).toList := by
  by_cases hnil : source = []
  · subst hnil
    obtain rfl := eq_of_ofRejection?_nil hreport
    rw [write_bare]
    exact marks_display hmessage
  · obtain ⟨label, rfl⟩ := exists_draw_of_ofRejection? hnil hreport
    exact marks_draw hmessage label

end Report

/-! ## The codes of a run -/

/-- The fault for which an expression is refused, if it is. -/
def Expression.refusals (limits : Limits) (text : Text) : List Fault :=
  match reckon limits text with
  | .ok _ => []
  | .error rejection => [rejection.fault]

namespace Command.Options

open Expression (refusals)

variable (options : Options)

theorem marks_answer (text : Text) :
    Marks (refusals options.limits text) (options.answer text).stderr.toList := by
  unfold answer refusals
  cases hreckon : Expression.reckon options.limits text with
  | ok reckoning => exact .unmarked (Text.unmarked_of_notMem List.not_mem_nil)
  | error rejection =>
    have hrejects : Expression.Rejects options.limits rejection := .reckoning hreckon
    have hforward : ¬ Report.Backward text rejection :=
      Report.not_backward_of_start_le_stop fun _ => hrejects.start_le_stop
    obtain ⟨report, hreport⟩ := Report.exists_ofRejection? hforward
    have htaken := Expression.takenFrom_of_total_error (Expression.total_of_reckon_error hreckon)
    simp only [hreport]
    exact Report.marks_write hreport (Fault.unmarked_message htaken)

theorem marks_runExpression (text : Text) :
    Marks (refusals options.limits text) (options.runExpression text).stderr.toList := by
  rw [runExpression, Output.append_def, stderr_listTokens, String.empty_append]
  exact options.marks_answer text

theorem marks_runExpressions (texts : List Text) :
    Marks (texts.flatMap (refusals options.limits))
      (Output.concat (texts.map options.runExpression)).stderr.toList := by
  induction texts with
  | nil => exact .unmarked (Text.unmarked_of_notMem List.not_mem_nil)
  | cons text texts ih =>
    rw [List.map_cons, Output.concat_cons, Output.append_def, String.toList_append]
    exact (options.marks_runExpression text).append ih

theorem unmarked_inputFailure : Text.Unmarked inputFailure.toList := by
  have hfirst : Text.Unmarked
      "Error: invoice_calc::stdin\n\n  × failed to read expression from stdin\n".toList :=
    Text.unmarked_of_notMem (by decide)
  have hlast : Text.Unmarked "  ╰─▶ stream did not contain valid UTF-8\n\n".toList :=
    Text.unmarked_of_notMem (by decide)
  have hsplit : inputFailure =
      "Error: invoice_calc::stdin\n\n  × failed to read expression from stdin\n" ++
        "  ╰─▶ stream did not contain valid UTF-8\n\n" := rfl
  rw [hsplit, String.toList_append]
  exact hfirst.append hlast

theorem unmarked_closing (input : List UInt8) :
    Text.Unmarked (options.closing input).stderr.toList := by
  have hnothing : Text.Unmarked "".toList := by decide
  unfold closing
  split
  · exact hnothing
  · induction inputLines input with
    | nil => exact hnothing
    | cons line lines ih =>
      rw [ending]
      split
      · exact unmarked_inputFailure
      · exact ih

/-- **A run shows the codes of the expressions that it refuses**, one after the other. -/
theorem marks_run (input : List UInt8) :
    Marks ((options.expressions input).flatMap (refusals options.limits))
      (options.run input).stderr.toList := by
  rw [run_eq, Output.append_def, String.toList_append, ← List.append_nil (List.flatMap _ _)]
  exact (options.marks_runExpressions _).append (.unmarked (options.unmarked_closing input))

/-- A code is in what a run writes if an expression is refused for a fault with this code. -/
theorem infix_stderr_iff (input : List UInt8) (fault : Fault) :
    fault.mark <:+: (options.run input).stderr.toList ↔
      ∃ text ∈ options.expressions input, ∃ rejection,
        Expression.reckon options.limits text = .error rejection ∧
          rejection.fault.code = fault.code := by
  rw [(options.marks_run input).infix_iff]
  simp only [List.mem_flatMap]
  constructor
  · rintro ⟨other, ⟨text, htext, hother⟩, hcode⟩
    refine ⟨text, htext, ?_⟩
    unfold refusals at hother
    cases hreckon : Expression.reckon options.limits text with
    | ok reckoning => simp [hreckon] at hother
    | error rejection =>
      obtain rfl : other = rejection.fault := by simpa [hreckon] using hother
      exact ⟨rejection, rfl, hcode⟩
  · rintro ⟨text, htext, rejection, hreckon, hcode⟩
    exact ⟨rejection.fault, ⟨text, htext, by simp [refusals, hreckon]⟩, hcode⟩

end Command.Options

end RomanInvoice
