import RomanInvoice.Command.Run
import RomanInvoice.Proofs.Arguments
import RomanInvoice.Proofs.Utf8.Reader

/-!
# Lines — an input is answered line by line

The command cuts its input into lines while it is still bytes. `inputLines_encode` says that these
are the lines of the text that the bytes spell, which `Text.inputLines` gives without looking at
bytes. So an input that is a text comes to what its lines come to as expressions on the command
line, one after the other; and an input that is no text does so up to the first line that is none,
which ends the run (`Options.runLines_eq`).
-/

namespace RomanInvoice

/-! ## The lines of a text -/

/-- A line without the carriage return at its end, if it has one there. -/
def chomp {α : Type} [DecidableEq α] (ret : α) (line : List α) : List α :=
  if line.getLast? = some ret then line.dropLast else line

namespace Text

/-- The lines of a text that is cut at its line feeds: the last piece is a line unless it is empty,
and each of the others has a line feed behind it. -/
def linesOfPieces : List Text → List Text
  | [] => []
  | [last] => if last = [] then [] else [last]
  | piece :: pieces => chomp '\r' piece :: linesOfPieces pieces

/-- The lines of a text without their ends, a line feed or a carriage return and a line feed. -/
def inputLines (text : Text) : List Text :=
  linesOfPieces (text.splitOn '\n')

section Lines

variable {line text : Text}

theorem inputLines_of_not_mem (h : '\n' ∉ line) :
    inputLines line = if line = [] then [] else [line] := by
  rw [inputLines, List.splitOn_eq_singleton h]
  rfl

theorem inputLines_append_feed (h : '\n' ∉ line) :
    inputLines (line ++ '\n' :: text) = chomp '\r' line :: inputLines text := by
  rw [inputLines, inputLines, List.splitOn_append_cons_self_of_not_mem h]
  obtain ⟨piece, pieces, hpieces⟩ := List.exists_cons_of_ne_nil (List.splitOn_ne_nil '\n' text)
  rw [hpieces]
  rfl

end Lines

end Text

namespace Command

/-! ## The lines of an input -/

section Input

variable {b : UInt8} {line bytes : List UInt8}

theorem inputLines_feed (bytes : List UInt8) :
    inputLines (0x0a :: bytes) = [] :: inputLines bytes := rfl

theorem inputLines_cons (hfeed : b ≠ 0x0a)
    (hreturn : ∀ more, b = 0x0d → bytes ≠ 0x0a :: more) :
    inputLines (b :: bytes) =
      match inputLines bytes with
      | [] => [[b]]
      | line :: lines => (b :: line) :: lines :=
  inputLines.eq_4 b bytes hfeed hreturn

theorem inputLines_of_not_mem (h : 0x0a ∉ line) :
    inputLines line = if line = [] then [] else [line] := by
  induction line with
  | nil => rfl
  | cons b line ih =>
    rw [List.mem_cons, not_or] at h
    rw [inputLines_cons (Ne.symm h.1) (by rintro more _ rfl; simp at h), ih h.2]
    cases line <;> rfl

theorem inputLines_append_feed (h : 0x0a ∉ line) :
    inputLines (line ++ 0x0a :: bytes) = chomp 0x0d line :: inputLines bytes := by
  induction line with
  | nil => rfl
  | cons b line ih =>
    rw [List.mem_cons, not_or] at h
    cases line with
    | nil =>
      by_cases hb : b = 0x0d
      · subst hb
        rfl
      · rw [List.singleton_append, inputLines_cons (Ne.symm h.1) (fun _ h => absurd h hb),
          inputLines_feed]
        simp [chomp, hb]
    | cons b' line =>
      rw [List.cons_append, inputLines_cons (Ne.symm h.1) (by rintro more _ ⟨⟩; simp at h), ih h.2]
      simp only [chomp, List.getLast?_cons_cons, List.dropLast_cons_cons]
      split <;> rfl

end Input

/-! ## Lines and bytes -/

theorem chomp_encode (line : Text) :
    chomp 0x0d (Utf8.encode line) = Utf8.encode (chomp '\r' line) := by
  rcases List.eq_nil_or_concat line with rfl | ⟨front, c, rfl⟩
  · rfl
  rw [List.concat_eq_append, Utf8.encode_append]
  by_cases hc : c = '\r'
  · subst hc
    show chomp 0x0d (Utf8.encode front ++ [0x0d]) = _
    simp [chomp]
  · have hlast : (Utf8.encode front ++ Utf8.encode [c]).getLast? ≠ some 0x0d := by
      intro h
      rw [List.getLast?_append_of_ne_nil _ (by simp [String.utf8EncodeChar_ne_nil])] at h
      have hmem := (Utf8.mem_encode_iff (c := '\r') (by decide) rfl).1 (List.mem_of_getLast? h)
      exact hc (List.mem_singleton.1 hmem).symm
    rw [chomp, if_neg hlast, chomp, if_neg (by simpa using hc), Utf8.encode_append]

/-- **The lines of an input that is a text are the lines of the text.** -/
theorem inputLines_encode (text : Text) :
    inputLines (Utf8.encode text) = text.inputLines.map Utf8.encode := by
  induction hlength : text.length using Nat.strongRecOn generalizing text with
  | ind length ih =>
    have hfeed {text : Text} : 0x0a ∈ Utf8.encode text ↔ '\n' ∈ text :=
      Utf8.mem_encode_iff (by decide) rfl
    by_cases h : '\n' ∈ text
    · obtain ⟨line, rest, rfl, hline⟩ := List.eq_append_cons_of_mem h
      have hlt : rest.length < length := by
        rw [← hlength, List.length_append, List.length_cons]
        omega
      rw [Text.inputLines_append_feed hline, List.map_cons, ← ih _ hlt rest rfl, ← chomp_encode,
        ← inputLines_append_feed (mt hfeed.1 hline), Utf8.encode_append]
      rfl
    · rw [Text.inputLines_of_not_mem h, inputLines_of_not_mem (mt hfeed.1 h)]
      cases text with
      | nil => rfl
      | cons c text => simp [String.utf8EncodeChar_ne_nil]

/-! ## Running the lines -/

namespace Output

/-- What several runs leave behind, one after the other. -/
def concat (outputs : List Output) : Output :=
  ⟨String.join (outputs.map stdout), String.join (outputs.map stderr), outputs.any failed⟩

@[simp] theorem concat_nil : concat [] = {} := rfl

@[simp] theorem concat_cons (output : Output) (outputs : List Output) :
    concat (output :: outputs) = output ++ concat outputs := by
  simp [concat, append_def, String.join_cons]

theorem status_concat (outputs : List Output) :
    (concat outputs).status = if ∃ output ∈ outputs, output.status = 1 then 1 else 0 := by
  have hone (output : Output) : output.status = 1 ↔ output.failed := by
    simp [status]
  simp only [hone]
  simp [status, concat]

end Output

/-- The texts of lines, up to the first line that is no text. -/
def texts : List (List UInt8) → List Text
  | [] => []
  | line :: lines =>
    match Utf8.decode line with
    | .error _ => []
    | .ok text => text :: texts lines

/-- What is written behind the answers to lines: nothing, unless one of them is no text. -/
def ending : List (List UInt8) → Output
  | [] => {}
  | line :: lines =>
    match Utf8.decode line with
    | .error _ => { stderr := inputFailure, failed := true }
    | .ok _ => ending lines

theorem stdout_ending (lines : List (List UInt8)) : (ending lines).stdout = "" := by
  induction lines with
  | nil => rfl
  | cons line lines ih =>
    rw [ending]
    split
    · rfl
    · exact ih

/-- **A run of lines**: their texts are run one by one, the blank ones left out. -/
theorem Options.runLines_eq (options : Options) (lines : List (List UInt8)) :
    options.runLines lines =
      .concat (((texts lines).filter (!·.allBlank)).map options.runExpression) ++ ending lines := by
  induction lines with
  | nil => rfl
  | cons line lines ih =>
    rw [runLines_cons, texts, ending]
    cases Utf8.decode line with
    | error span => simp
    | ok text =>
      rw [ih]
      cases hblank : text.allBlank with
      | true => simp [hblank]
      | false => simp [hblank, Output.append_assoc]

section Texts

variable {line : List UInt8} {lines : List (List UInt8)}

theorem texts_append (before : List Text) (lines : List (List UInt8)) :
    texts (before.map Utf8.encode ++ lines) = before ++ texts lines := by
  induction before with
  | nil => rfl
  | cons text before ih => rw [List.map_cons, List.cons_append, texts, Utf8.decode_encode, ih]; rfl

theorem ending_append (before : List Text) (lines : List (List UInt8)) :
    ending (before.map Utf8.encode ++ lines) = ending lines := by
  induction before with
  | nil => rfl
  | cons text before ih => rw [List.map_cons, List.cons_append, ending, Utf8.decode_encode, ih]

theorem texts_map_encode (before : List Text) : texts (before.map Utf8.encode) = before := by
  simpa [texts] using texts_append before []

theorem ending_map_encode (before : List Text) : ending (before.map Utf8.encode) = {} := by
  simpa [ending] using ending_append before []

/-- Lines that are texts are run one by one, the blank ones left out. -/
theorem Options.runLines_map_encode (options : Options) (lines : List Text) :
    options.runLines (lines.map Utf8.encode) =
      .concat ((lines.filter (!·.allBlank)).map options.runExpression) := by
  rw [runLines_eq, texts_map_encode, ending_map_encode, Output.append_empty]

end Texts

/-! ## The whole input -/

theorem run_of_options {arguments : List Text} {options : Options} {input : List UInt8}
    (h : Options.ofArguments arguments = .ok options) :
    run arguments input = .ok (options.run input) := by
  rw [run, h]
  rfl

/-- **An input is answered line by line**: where the arguments are options only, a text on the
standard input comes to what its lines, the blank ones left out, come to as expressions behind the
same options. The outputs stand one after the other, and the run fails if one of these fails. -/
theorem run_line_by_line (arguments : List Text) (options : Options) (text : Text)
    (hoptions : Options.ofArguments arguments = .ok options) (hend : ['-', '-'] ∉ arguments)
    (hnone : options.expression? = none) :
    ∃ output outputs, run arguments (Utf8.encode text) = .ok output ∧
      (∀ input, ((text.inputLines.filter (!·.allBlank)).mapM fun line =>
        run (arguments ++ [['-', '-'], line]) input) = .ok outputs) ∧
      output.stdout = String.join (outputs.map Output.stdout) ∧
      output.stderr = String.join (outputs.map Output.stderr) ∧
      output.status = if ∃ output ∈ outputs, output.status = 1 then 1 else 0 := by
  have hline (line : Text) (input : List UInt8) :
      run (arguments ++ [['-', '-'], line]) input = .ok (options.runExpression line) :=
    run_of_options (Options.addArguments_line hoptions hend hnone)
  have hrun : run arguments (Utf8.encode text) =
      .ok (.concat ((text.inputLines.filter (!·.allBlank)).map options.runExpression)) := by
    rw [run_of_options hoptions, Options.run, hnone, inputLines_encode,
      ← Options.runLines_map_encode]
  refine ⟨_, _, hrun, ?_, rfl, rfl, Output.status_concat _⟩
  intro input
  simp only [hline]
  exact List.mapM_pure

/-- Lines of every kind: with a carriage return, blank, with an operator in front, and without an
end. -/
theorem run_line_by_line_mixed :
    Text.inputLines "ı+1\r\n \n-3\nx".toList =
        ["ı+1".toList, " ".toList, "-3".toList, "x".toList] ∧
      ∃ output outputs, run ["--normalized".toList] (Utf8.encode "ı+1\r\n \n-3\nx".toList) =
          .ok output ∧
        (∀ input, (["ı+1".toList, "-3".toList, "x".toList].mapM fun line =>
          run ["--normalized".toList, "--".toList, line] input) = .ok outputs) ∧
        output.stdout = String.join (outputs.map Output.stdout) ∧
        output.stdout = "I + 1 = 2\nX = 10\n" ∧ output.status = 1 := by
  obtain ⟨output, outputs, hrun, hlines, hout, _⟩ :=
    run_line_by_line ["--normalized".toList] { normalized := true } "ı+1\r\n \n-3\nx".toList rfl
      (by decide) rfl
  have hstdout : (run ["--normalized".toList] (Utf8.encode "ı+1\r\n \n-3\nx".toList)).map
      Output.stdout = .ok "I + 1 = 2\nX = 10\n" := rfl
  have hstatus : (run ["--normalized".toList] (Utf8.encode "ı+1\r\n \n-3\nx".toList)).map
      Output.status = .ok 1 := rfl
  rw [hrun] at hstdout hstatus
  exact ⟨rfl, output, outputs, hrun, hlines, hout, Except.ok.inj hstdout, Except.ok.inj hstatus⟩

/-! ## An input that is no text -/

section Broken

variable {line broken rest : List UInt8}

end Broken

end Command

end RomanInvoice
