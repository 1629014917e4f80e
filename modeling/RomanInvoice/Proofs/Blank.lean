import RomanInvoice.Proofs.Report.Codes

/-!
# Blanks — what is no expression at all

The command leaves a line out if nothing of it is left between its blanks, and the reader finds a
text empty if it has no token. These are the same texts, whatever blanks they are made of: every
other character is illegal or leaves a token behind. So of lines no one is ever told that they are
empty, while of an expression among the arguments it is said whenever it is so, unless the
expression is too long to be read.
-/

namespace RomanInvoice

/-! ## Trimmed texts -/

namespace Text

/-- A text without the blanks at its two ends. -/
def trim (text : Text) : Text :=
  trimEnd (text.dropWhile isBlank)

variable {text : Text}

theorem trimEnd_eq_nil_iff : trimEnd text = [] ↔ ∀ c ∈ text, isBlank c := by
  induction text with
  | nil => simp [trimEnd]
  | cons c text ih =>
    rw [trimEnd, List.forall_mem_cons, ← ih]
    split
    · next hnil => simp [hnil]
    · next hkept => simp [show trimEnd text ≠ [] from hkept]

theorem trim_eq_nil_iff : trim text = [] ↔ ∀ c ∈ text, isBlank c := by
  rw [trim, trimEnd_eq_nil_iff]
  constructor
  · intro h c hc
    have hsplit : text.takeWhile isBlank ++ text.dropWhile isBlank = text :=
      List.takeWhile_append_dropWhile
    rw [← hsplit] at hc
    rcases List.mem_append.1 hc with hc | hc
    · exact List.all_eq_true.1 List.all_takeWhile c hc
    · exact h c hc
  · exact fun h c hc => h c ((List.dropWhile_sublist isBlank).subset hc)

/-- What the command asks of a line. -/
theorem allBlank_iff : text.allBlank ↔ text.trim = [] := by
  rw [trim_eq_nil_iff, allBlank, List.all_eq_true]

end Text

/-! ## Empty expressions -/

theorem Fault.code_eq_empty_iff {fault : Fault} : fault.code = empty.code ↔ fault = empty := by
  cases fault <;> simp [code]

namespace Expression

variable {limits : Limits} {text : Text}

theorem tokens_of_trim_nil (hlength : text.length ≤ limits.maxLength) (h : text.trim = []) :
    tokens limits text = .error (Fault.empty.inSpan ⟨0, text.byteSize⟩) :=
  tokens_eq_of_verdict (.empty hlength (Text.trim_eq_nil_iff.1 h))

theorem trim_of_empty {span? : Option Span} (h : tokens limits text = .error ⟨.empty, span?⟩) :
    text.length ≤ limits.maxLength ∧ text.trim = [] ∧ span? = some ⟨0, text.byteSize⟩ := by
  obtain ⟨result, hverdict⟩ := exists_verdict limits text
  obtain rfl := (tokens_eq_of_verdict hverdict).symm.trans h
  cases hverdict with
  | empty hlength hblank => exact ⟨hlength, Text.trim_eq_nil_iff.2 hblank, rfl⟩

/-- An expression is refused as empty if it is, and is not too long. -/
theorem reckon_empty_iff :
    (∃ rejection, reckon limits text = .error rejection ∧
      rejection.fault.code = Fault.empty.code) ↔
        text.trim = [] ∧ text.length ≤ limits.maxLength := by
  constructor
  · rintro ⟨⟨fault, span?⟩, hreckon, hcode⟩
    obtain rfl : fault = .empty := Fault.code_eq_empty_iff.1 hcode
    have htokens := (tokens_of_empty (total_of_reckon_error hreckon)).1
    obtain ⟨hlength, htrim, _⟩ := trim_of_empty htokens
    exact ⟨htrim, hlength⟩
  · rintro ⟨htrim, hlength⟩
    refine ⟨Fault.empty.inSpan ⟨0, text.byteSize⟩, ?_, rfl⟩
    rw [reckon, tokens_of_trim_nil hlength htrim]
    rfl

end Expression

/-! ## Runs -/

namespace Command

/-- The code of empty expressions is in what a run writes if one of its expressions is empty. -/
theorem Options.infix_empty_iff (options : Options) (input : List UInt8) :
    "[F004]".toList <:+: (options.run input).stderr.toList ↔
      ∃ text ∈ options.expressions input,
        text.trim = [] ∧ text.length ≤ options.limits.maxLength := by
  have hmark : "[F004]".toList = Fault.empty.mark := rfl
  rw [hmark, infix_stderr_iff]
  simp only [Expression.reckon_empty_iff]

/-- **Blank is blank to the command and to the reader**: within the limit of length the reader finds
a text empty if nothing is left of it between its blanks, and then blames the whole of it. So no run
of lines writes the code of an empty expression, and a run of one expression does so if that is
blank and not too long. -/
theorem run_reports_empty :
    (∀ limits text, text.length ≤ limits.maxLength →
      ((∃ span?, Expression.tokens limits text = .error ⟨.empty, span?⟩) ↔ text.trim = []) ∧
        ∀ span?, Expression.tokens limits text = .error ⟨.empty, span?⟩ →
          span? = some ⟨0, text.byteSize⟩) ∧
    ∀ arguments input output, run arguments input = .ok output →
      ∃ options, Options.ofArguments arguments = .ok options ∧
        (options.expression? = none → ¬ "[F004]".toList <:+: output.stderr.toList) ∧
        ∀ text, options.expression? = some text →
          ("[F004]".toList <:+: output.stderr.toList ↔
            text.trim = [] ∧ text.length ≤ options.limits.maxLength) := by
  refine ⟨?_, ?_⟩
  · intro limits text hlength
    refine ⟨⟨?_, ?_⟩, fun span? h => (Expression.trim_of_empty h).2.2⟩
    · rintro ⟨span?, h⟩
      exact (Expression.trim_of_empty h).2.1
    · exact fun htrim => ⟨_, Expression.tokens_of_trim_nil hlength htrim⟩
  · intro arguments input output hrun
    obtain ⟨options, hoptions, hrun⟩ := exists_of_bind_eq_ok hrun
    obtain rfl := Except.ok.inj hrun
    refine ⟨options, hoptions, ?_, ?_⟩
    · intro hnone hcode
      obtain ⟨text, htext, htrim, _⟩ := (options.infix_empty_iff input).1 hcode
      rw [Options.expressions, hnone] at htext
      have hblank := (List.mem_filter.1 htext).2
      rw [Text.allBlank_iff.2 htrim] at hblank
      cases hblank
    · intro text htext
      rw [options.infix_empty_iff, Options.expressions, htext]
      simp

/-- Two blanks, one of them of three bytes, as an expression that just passes and as one that is too
long, and among lines. -/
theorem run_reports_empty_at_limit :
    Expression.tokens ⟨2, 1⟩ " \u3000".toList = .error ⟨.empty, some ⟨0, 4⟩⟩ ∧
      (∃ output, run ["--max-length=2".toList, " \u3000".toList] [] = .ok output ∧
        "[F004]".toList <:+: output.stderr.toList) ∧
      (∃ output, run ["--max-length=1".toList, " \u3000".toList] [] = .ok output ∧
        ¬ "[F004]".toList <:+: output.stderr.toList) ∧
      ∃ output, run [] (Utf8.encode " \u3000\n\n+\n".toList) = .ok output ∧
        ¬ "[F004]".toList <:+: output.stderr.toList := by
  obtain ⟨htokens, hrun⟩ := run_reports_empty
  have htrim : Text.trim " \u3000".toList = [] := by decide
  refine ⟨?_, ?_, ?_, ?_⟩
  · obtain ⟨hempty, hspan⟩ := htokens ⟨2, 1⟩ " \u3000".toList (by decide)
    obtain ⟨span?, h⟩ := hempty.2 htrim
    rw [h, hspan span? h]
    rfl
  · obtain ⟨options, hoptions, _, hone⟩ := hrun ["--max-length=2".toList, " \u3000".toList] [] _ rfl
    obtain rfl : _ = options := Except.ok.inj hoptions
    exact ⟨_, rfl, (hone _ rfl).2 ⟨htrim, by decide⟩⟩
  · obtain ⟨options, hoptions, _, hone⟩ := hrun ["--max-length=1".toList, " \u3000".toList] [] _ rfl
    obtain rfl : _ = options := Except.ok.inj hoptions
    exact ⟨_, rfl, fun h => absurd ((hone _ rfl).1 h).2 (by decide)⟩
  · obtain ⟨options, hoptions, hlines, _⟩ := hrun [] (Utf8.encode " \u3000\n\n+\n".toList) _ rfl
    obtain rfl : _ = options := Except.ok.inj hoptions
    exact ⟨_, rfl, hlines rfl⟩

end Command

end RomanInvoice
