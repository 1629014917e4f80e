import RomanInvoice.Proofs.Lines
import RomanInvoice.Proofs.NormalForm

/-!
# Switches — what they show and what they leave alone

A switch decides how much of an expression is shown, not what becomes of it. `Options.run_eq` takes
a run apart into the expressions that are run and the way in which the input ends, and neither looks
at the switches; so a run with a switch is the run without, where each expression shows what `shown`
says. In front of other arguments a switch can be given if it is off at their end, as nothing behind
it depends on a switch but the same switch given again (`Options.addArguments_switch`).
-/

namespace RomanInvoice.Command

namespace Options

/-- Whether a switch is on. -/
def isOn (options : Options) : Switch → Bool
  | .normalized => options.normalized
  | .debugTokens => options.debugTokens

/-- Options with a switch on. -/
def switchedOn (options : Options) : Switch → Options
  | .normalized => { options with normalized := true }
  | .debugTokens => { options with debugTokens := true }

/-- Options with several switches on. -/
def withSwitches (options : Options) (switches : List Switch) : Options :=
  { options with
    normalized := decide (.normalized ∈ switches) || options.normalized
    debugTokens := decide (.debugTokens ∈ switches) || options.debugTokens }

/-! ## Switches and other steps -/

section Steps

variable {options next result : Options} {switch other : Switch} {step : Step} {steps : List Step}
  {arguments : List Text}

theorem isOn_switchedOn :
    (options.switchedOn switch).isOn other = (decide (switch = other) || options.isOn other) := by
  cases switch <;> cases other <;> simp [switchedOn, isOn]

theorem switchedOn_comm :
    (options.switchedOn switch).switchedOn other =
      (options.switchedOn other).switchedOn switch := by
  cases switch <;> cases other <;> rfl

theorem turnOn_eq (options : Options) (switch : Switch) :
    options.turnOn switch =
      if options.isOn switch then .error .usage else .ok (options.switchedOn switch) := by
  cases switch <;> rfl

theorem assign_switchedOn {setting : Setting} {value : Text} :
    (options.switchedOn switch).assign setting value =
      (options.assign setting value).map (·.switchedOn switch) := by
  cases switch <;> simp only [switchedOn, assign] <;> split <;> rfl

theorem isOn_of_assign {setting : Setting} {value : Text}
    (h : options.assign setting value = .ok next) : next.isOn switch = options.isOn switch := by
  unfold assign at h
  split at h <;> cases h <;> cases switch <;> rfl

theorem takeExpression_switchedOn {text : Text} :
    (options.switchedOn switch).takeExpression text =
      (options.takeExpression text).map (·.switchedOn switch) := by
  cases switch <;> simp only [switchedOn, takeExpression] <;> split <;> rfl

theorem isOn_of_takeExpression {text : Text}
    (h : options.takeExpression text = .ok next) : next.isOn switch = options.isOn switch := by
  unfold takeExpression at h
  split at h <;> cases h
  cases switch <;> rfl

/-- A switch that is off behind a step may as well be turned on before it. -/
theorem apply_switchedOn (h : step.apply options = .ok next) (hoff : next.isOn switch = false) :
    options.isOn switch = false ∧
      step.apply (options.switchedOn switch) = .ok (next.switchedOn switch) := by
  cases step with
  | turnOn other =>
    rw [Step.apply, turnOn_eq] at h
    split at h
    · cases h
    next hother =>
    cases h
    rw [isOn_switchedOn, Bool.or_eq_false_iff, decide_eq_false_iff_not] at hoff
    refine ⟨hoff.2, ?_⟩
    rw [Step.apply, turnOn_eq, isOn_switchedOn, decide_eq_false (Ne.symm hoff.1), Bool.false_or,
      if_neg hother, switchedOn_comm]
  | assign setting value =>
    rw [Step.apply] at h
    rw [Step.apply, assign_switchedOn, h, ← isOn_of_assign h]
    exact ⟨hoff, rfl⟩
  | takeExpression text =>
    rw [Step.apply] at h
    rw [Step.apply, takeExpression_switchedOn, h, ← isOn_of_takeExpression h]
    exact ⟨hoff, rfl⟩

/-- A switch that is off behind a list of steps may as well be turned on before it. -/
theorem foldlM_switchedOn (h : steps.foldlM Step.apply options = .ok result)
    (hoff : result.isOn switch = false) :
    options.isOn switch = false ∧
      steps.foldlM Step.apply (options.switchedOn switch) = .ok (result.switchedOn switch) := by
  induction steps generalizing options with
  | nil =>
    cases h
    exact ⟨hoff, rfl⟩
  | cons step steps ih =>
    obtain ⟨next, hnext, hrest⟩ := exists_of_bind_eq_ok h
    obtain ⟨hoffNext, hsteps⟩ := ih hrest
    obtain ⟨hoffOptions, hstep⟩ := apply_switchedOn hnext hoffNext
    refine ⟨hoffOptions, ?_⟩
    rw [List.foldlM_cons, hstep]
    exact hsteps

/-- A switch can be given in front of arguments that leave it off. -/
theorem addArguments_switch (h : options.addArguments arguments = .ok result)
    (hoff : result.isOn switch = false) :
    options.addArguments (switch.argument :: arguments) = .ok (result.switchedOn switch) := by
  obtain ⟨steps, hreads, hsteps⟩ := addArguments_eq_ok_iff.1 h
  obtain ⟨hoffOptions, hrest⟩ := foldlM_switchedOn hsteps hoff
  refine addArguments_eq_ok_iff.2
    ⟨.turnOn switch :: steps, .switch (Argument.ofText_switch switch) hreads, ?_⟩
  rw [List.foldlM_cons, Step.apply, turnOn_eq, hoffOptions]
  exact hrest

theorem isOn_withSwitches (options : Options) (switches : List Switch) (switch : Switch) :
    (options.withSwitches switches).isOn switch =
      (decide (switch ∈ switches) || options.isOn switch) := by
  cases switch <;> rfl

theorem withSwitches_cons (options : Options) (switch : Switch) (switches : List Switch) :
    options.withSwitches (switch :: switches) =
      (options.withSwitches switches).switchedOn switch := by
  cases switch <;> simp [withSwitches, switchedOn]

/-- Different switches can be given in front of arguments that leave all of them off. -/
theorem addArguments_switches {switches : List Switch} (hnodup : switches.Nodup)
    (h : options.addArguments arguments = .ok result)
    (hoff : ∀ switch ∈ switches, result.isOn switch = false) :
    options.addArguments (switches.map Switch.argument ++ arguments) =
      .ok (result.withSwitches switches) := by
  induction switches with
  | nil => exact h
  | cons switch switches ih =>
    obtain ⟨hnew, hnodup⟩ := List.nodup_cons.1 hnodup
    have hothers := ih hnodup fun other hother => hoff other (List.mem_cons_of_mem _ hother)
    rw [withSwitches_cons]
    refine addArguments_switch hothers ?_
    rw [isOn_withSwitches, decide_eq_false hnew, Bool.false_or]
    exact hoff switch List.mem_cons_self

end Steps

/-! ## The parts of a run -/

/-- The expressions that are run: the one among the arguments, or the lines of the input that are
not blank, up to the first that is no text. -/
def expressions (options : Options) (input : List UInt8) : List Text :=
  match options.expression? with
  | some text => [text]
  | none => (texts (inputLines input)).filter (!·.allBlank)

/-- What is written behind the answers to the expressions. -/
def closing (options : Options) (input : List UInt8) : Output :=
  match options.expression? with
  | some _ => {}
  | none => ending (inputLines input)

/-- **A run**: the expressions one by one, and the end of the input. -/
theorem run_eq (options : Options) (input : List UInt8) :
    options.run input =
      .concat ((options.expressions input).map options.runExpression) ++ options.closing input := by
  unfold run expressions closing
  cases options.expression? with
  | some text => simp
  | none => exact runLines_eq _ _

end Options

/-! ## What an expression shows -/

/-- The block of tokens: a heading, each token on a line, and an empty line. -/
def shownTokens (switches : List Switch) (ts : List Token) : String :=
  if .debugTokens ∈ switches then "=== Tokens ===\n" ++ String.join (ts.map tokenLine) ++ "\n"
  else ""

/-- The line of the total, if there is one. -/
def shownTotal (switches : List Switch) (ts : List Token) : String :=
  match Token.total ts with
  | .error _ => ""
  | .ok total =>
    if .normalized ∈ switches then
      String.ofList (Token.normalForm ts) ++ " = " ++ toString total ++ "\n"
    else toString total ++ "\n"

/-- What an expression shows on the standard output with these switches given. -/
def shown (limits : Limits) (switches : List Switch) (text : Text) : String :=
  match Expression.tokens limits text with
  | .error _ => ""
  | .ok ts => shownTokens switches ts ++ shownTotal switches ts

namespace Options

section Shown

variable {options other : Options} {switches : List Switch} {text : Text} {ts : List Token}

theorem stdout_listTokens (hon : options.debugTokens = decide (.debugTokens ∈ switches))
    (hts : Expression.tokens options.limits text = .ok ts) :
    (options.listTokens text).stdout = shownTokens switches ts := by
  rw [listTokens, hts, hon, shownTokens]
  by_cases h : Switch.debugTokens ∈ switches
  · rw [if_pos h, decide_eq_true h]
    rfl
  · rw [if_neg h, decide_eq_false h]

theorem stdout_answer (hon : options.normalized = decide (.normalized ∈ switches))
    (hts : Expression.tokens options.limits text = .ok ts) :
    (options.answer text).stdout = shownTotal switches ts := by
  have hreckon : Expression.reckon options.limits text =
      (Token.total ts).map fun total => ⟨text, Token.normalForm ts, total⟩ := by
    rw [Expression.reckon, hts]
    rfl
  rw [answer, hreckon, hon, shownTotal]
  cases Token.total ts with
  | error rejection => rfl
  | ok total =>
    by_cases h : Switch.normalized ∈ switches
    · simp only [h]
      rfl
    · simp only [h]
      rfl

/-- An expression shows what its switches say. -/
theorem stdout_runExpression (hon : ∀ switch, options.isOn switch = decide (switch ∈ switches))
    (text : Text) : (options.runExpression text).stdout = shown options.limits switches text := by
  rw [runExpression, Output.append_def, shown]
  cases hts : Expression.tokens options.limits text with
  | error rejection => simp [listTokens, answer, Expression.reckon, hts, bind, Except.bind]
  | ok ts => rw [stdout_listTokens (hon .debugTokens) hts, stdout_answer (hon .normalized) hts]

theorem stderr_listTokens (options : Options) (text : Text) :
    (options.listTokens text).stderr = "" := by
  unfold listTokens
  split <;> rfl

theorem failed_listTokens (options : Options) (text : Text) :
    (options.listTokens text).failed = false := by
  unfold listTokens
  split <;> rfl

/-- Whether an expression is refused, and with which report, depends on the limits only. -/
theorem runExpression_congr (h : options.limits = other.limits) (text : Text) :
    (options.runExpression text).stderr = (other.runExpression text).stderr ∧
      (options.runExpression text).failed = (other.runExpression text).failed := by
  simp only [runExpression, Output.append_def, stderr_listTokens, failed_listTokens, answer, h]
  cases Expression.reckon other.limits text with
  | error rejection => exact ⟨rfl, rfl⟩
  | ok reckoning => exact ⟨rfl, rfl⟩

/-! ## What a run shows -/

theorem stdout_closing (options : Options) (input : List UInt8) :
    (options.closing input).stdout = "" := by
  unfold closing
  split
  · rfl
  · exact stdout_ending _

/-- A run shows what its expressions show. -/
theorem stdout_run (hon : ∀ switch, options.isOn switch = decide (switch ∈ switches))
    (input : List UInt8) :
    (options.run input).stdout =
      String.join ((options.expressions input).map (shown options.limits switches)) := by
  have hshown : Output.stdout ∘ options.runExpression = shown options.limits switches :=
    funext (stdout_runExpression hon)
  rw [run_eq, Output.append_def, stdout_closing, String.append_empty, Output.concat, List.map_map,
    hshown]

/-- The reports of a run and its status depend on the limits and the expressions only. -/
theorem run_congr (hlimits : options.limits = other.limits)
    (hexpression : options.expression? = other.expression?) (input : List UInt8) :
    (options.run input).stderr = (other.run input).stderr ∧
      (options.run input).failed = (other.run input).failed := by
  have hexpressions : options.expressions input = other.expressions input := by
    rw [expressions, expressions, hexpression]
  have hclosing : options.closing input = other.closing input := by
    rw [closing, closing, hexpression]
  have hstderr : Output.stderr ∘ options.runExpression = Output.stderr ∘ other.runExpression :=
    funext fun text => (runExpression_congr hlimits text).1
  have hfailed : Output.failed ∘ options.runExpression = Output.failed ∘ other.runExpression :=
    funext fun text => (runExpression_congr hlimits text).2
  simp only [run_eq, Output.append_def, Output.concat, List.map_map, List.any_map, hexpressions,
    hclosing, hstderr, hfailed, and_self]

end Shown

end Options

/-! ## Lines of tokens -/

theorem newline_notMem_lexemeLine {lexeme : Lexeme} (h : lexeme.Proper) :
    '\n' ∉ (lexemeLine lexeme).toList := by
  cases lexeme with
  | operator op =>
    cases op with
    | plus => show '\n' ∉ "Operator(Add)".toList; decide
    | minus => show '\n' ∉ "Operator(Sub)".toList; decide
  | numeral numeral =>
    have htext : '\n' ∉ numeral.text := fun hmem =>
      absurd (h.written _ hmem) (by simp [Written])
    have hscript : '\n' ∉ (scriptName numeral.script).toList := by
      cases numeral.script <;> decide
    show '\n' ∉ ("Number(NumberText \x7b text: \"" ++ String.ofList numeral.text ++
      "\", kind: " ++ scriptName numeral.script ++ " \x7d)").toList
    simp [htext, hscript]

/-- A token is listed on one line. -/
theorem tokenLine_eq_line {token : Token} (h : token.lexeme.Proper) :
    ∃ line : String, '\n' ∉ line.toList ∧ tokenLine token = line ++ "\n" := by
  have hnat (n : Nat) : '\n' ∉ (toString n).toList := fun hmem =>
    absurd (isDigit_of_mem_repr hmem) (by decide)
  have hspan : '\n' ∉ s!", span: Span({token.span.start}..{token.span.stop})".toList := by
    simp only [String.toList_append, List.mem_append, not_or]
    exact ⟨⟨⟨⟨by decide, hnat _⟩, by decide⟩, hnat _⟩, by decide⟩
  refine ⟨"Token \x7b kind: " ++ lexemeLine token.lexeme ++
    s!", span: Span({token.span.start}..{token.span.stop})" ++ " \x7d", ?_, ?_⟩
  · rw [String.toList_append, String.toList_append, String.toList_append]
    simp only [List.mem_append, not_or]
    exact ⟨⟨⟨by decide, newline_notMem_lexemeLine h⟩, hspan⟩, by decide⟩
  · have hend : " \x7d\n" = " \x7d" ++ "\n" := rfl
    show _ ++ " \x7d\n" = _
    rw [hend, ← String.append_assoc]

/-! ## Runs with switches -/

/-- **Switches change what is shown and nothing else**: where a run is given no switch, any of them
can be put in front of its arguments. The status and the reports stay what they are, and each
expression shows with its total, and before it, what these switches ask for. -/
theorem run_with_switches (arguments : List Text) (options : Options) (input : List UInt8)
    (hoptions : Options.ofArguments arguments = .ok options)
    (hnormalized : options.normalized = false) (hdebug : options.debugTokens = false) :
    (∃ plain, run arguments input = .ok plain ∧
      plain.stdout = String.join ((options.expressions input).map (shown options.limits [])) ∧
      ∀ switches : List Switch, switches.Nodup →
        ∃ output, run (switches.map Switch.argument ++ arguments) input = .ok output ∧
          output.status = plain.status ∧ output.stderr = plain.stderr ∧
          output.stdout =
            String.join ((options.expressions input).map (shown options.limits switches))) ∧
      ∀ text ts, Expression.tokens options.limits text = .ok ts →
        ∀ token ∈ ts, ∃ line : String, '\n' ∉ line.toList ∧ tokenLine token = line ++ "\n" := by
  have hoff (switch : Switch) : options.isOn switch = false := by
    cases switch with
    | normalized => exact hnormalized
    | debugTokens => exact hdebug
  refine ⟨⟨_, run_of_options hoptions, Options.stdout_run (by simp [hoff]) input, ?_⟩, ?_⟩
  · intro switches hnodup
    have hswitches : Options.ofArguments (switches.map Switch.argument ++ arguments) =
        .ok (options.withSwitches switches) :=
      Options.addArguments_switches hnodup hoptions fun switch _ => hoff switch
    have hon (switch : Switch) :
        (options.withSwitches switches).isOn switch = decide (switch ∈ switches) := by
      rw [Options.isOn_withSwitches, hoff, Bool.or_false]
    have hlimits : (options.withSwitches switches).limits = options.limits := rfl
    have hcongr := Options.run_congr hlimits rfl input
    refine ⟨_, run_of_options hswitches, ?_, hcongr.1, Options.stdout_run hon input⟩
    rw [Output.status, Output.status, hcongr.2]
  · intro text ts hts token htoken
    exact tokenLine_eq_line (Expression.proper_of_tokens hts token htoken)

/-- A line that is accepted, one that is refused with its tokens listed, and one that has no tokens
to list. -/
theorem run_with_switches_of_each_kind :
    ∃ plain, run ["--max-tokens=3".toList] (Utf8.encode "x+1\n1+\n1$\n".toList) = .ok plain ∧
      plain.stdout = "11\n" ∧
      ∃ output, run ["--debug-tokens".toList, "--normalized".toList, "--max-tokens=3".toList]
          (Utf8.encode "x+1\n1+\n1$\n".toList) = .ok output ∧
        output.status = plain.status ∧ output.stderr = plain.stderr ∧
        output.stdout =
          tokenBlock [⟨.numeral ⟨.roman, ['X']⟩, ⟨0, 1⟩⟩, ⟨.operator .plus, ⟨1, 2⟩⟩,
            ⟨.numeral ⟨.digits, ['1']⟩, ⟨2, 3⟩⟩] ++ "X + 1 = 11\n" ++
          tokenBlock [⟨.numeral ⟨.digits, ['1']⟩, ⟨0, 1⟩⟩, ⟨.operator .plus, ⟨1, 2⟩⟩] := by
  let options : Options := { maxTokens? := some 3 }
  obtain ⟨⟨plain, hplain, hshown, hswitches⟩, _⟩ :=
    run_with_switches ["--max-tokens=3".toList] options (Utf8.encode "x+1\n1+\n1$\n".toList)
      rfl rfl rfl
  obtain ⟨output, houtput, hstatus, hstderr, hstdout⟩ :=
    hswitches [.debugTokens, .normalized] (by decide)
  have hexpressions : options.expressions (Utf8.encode "x+1\n1+\n1$\n".toList) =
      ["x+1".toList, "1+".toList, "1$".toList] := rfl
  have haccepted : shown options.limits [.debugTokens, .normalized] "x+1".toList =
      tokenBlock [⟨.numeral ⟨.roman, ['X']⟩, ⟨0, 1⟩⟩, ⟨.operator .plus, ⟨1, 2⟩⟩,
        ⟨.numeral ⟨.digits, ['1']⟩, ⟨2, 3⟩⟩] ++ "X + 1 = 11\n" := rfl
  have hungrammatical : shown options.limits [.debugTokens, .normalized] "1+".toList =
      tokenBlock [⟨.numeral ⟨.digits, ['1']⟩, ⟨0, 1⟩⟩, ⟨.operator .plus, ⟨1, 2⟩⟩] ++ "" := rfl
  have hillegal : shown options.limits [.debugTokens, .normalized] "1$".toList = "" := rfl
  refine ⟨plain, hplain, hshown.trans rfl, output, houtput, hstatus, hstderr, ?_⟩
  rw [hstdout, hexpressions]
  simp only [List.map_cons, List.map_nil, haccepted, hungrammatical, hillegal, String.join_cons,
    String.join_nil, String.append_empty]

end RomanInvoice.Command
