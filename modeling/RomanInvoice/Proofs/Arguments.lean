import RomanInvoice.Command.Options

/-!
# Arguments — command lines as steps

Two things decide whether arguments are accepted: what each of them says, which depends on nothing
that came before, and whether that can be done after what came before. `Reads` is the first, as a
list of steps that the arguments stand for, and `Step.apply` is the second. Arguments are accepted
exactly if they can be read as steps that can be taken one after the other
(`Options.addArguments_eq_ok_iff`), so that all further proofs go by induction on steps.
-/

namespace RomanInvoice.Command

theorem exists_of_bind_eq_ok {ε α β : Type} {x : Except ε α} {f : α → Except ε β} {b : β}
    (h : x >>= f = .ok b) : ∃ a, x = .ok a ∧ f a = .ok b := by
  cases x with
  | error => cases h
  | ok a => exact ⟨a, rfl, h⟩

/-- What a part of a command line asks for. -/
inductive Step where
  | turnOn (switch : Switch)
  | assign (setting : Setting) (value : Text)
  | takeExpression (text : Text)
  deriving DecidableEq, Repr

/-- Does what a part of a command line asks for. -/
def Step.apply (options : Options) : Step → Except Ending Options
  | turnOn switch => options.turnOn switch
  | assign setting value => options.assign setting value
  | takeExpression text => options.takeExpression text

/-- `Reads arguments steps`: the arguments stand for the steps. -/
inductive Reads : List Text → List Step → Prop where
  | nil : Reads [] []
  | endOfOptions {argument : Text} {arguments : List Text} :
    Argument.ofText argument = .endOfOptions →
    Reads (argument :: arguments) (arguments.map .takeExpression)
  | operand {argument text : Text} {arguments : List Text} {steps : List Step} :
    Argument.ofText argument = .operand text → Reads arguments steps →
    Reads (argument :: arguments) (.takeExpression text :: steps)
  | switch {argument : Text} {switch : Switch} {arguments : List Text} {steps : List Step} :
    Argument.ofText argument = .switch switch → Reads arguments steps →
    Reads (argument :: arguments) (.turnOn switch :: steps)
  /-- A setting with its value in one argument. -/
  | joined {argument value : Text} {setting : Setting} {arguments : List Text} {steps : List Step} :
    Argument.ofText argument = .setting setting (some value) → Reads arguments steps →
    Reads (argument :: arguments) (.assign setting value :: steps)
  /-- A setting with its value in the next argument. -/
  | apart {argument value : Text} {setting : Setting} {arguments : List Text} {steps : List Step} :
    Argument.ofText argument = .setting setting none → Reads arguments steps →
    Reads (argument :: value :: arguments) (.assign setting value :: steps)

/-! ## The form of an argument -/

/-- The argument that turns a switch on. -/
def Switch.argument : Switch → Text
  | normalized => "--normalized".toList
  | debugTokens => "--debug-tokens".toList

namespace Argument

variable {argument : Text}

theorem ofText_switch (switch : Switch) : ofText switch.argument = .switch switch := by
  cases switch <;> rfl

theorem ofText_eq_endOfOptions (h : ofText argument = .endOfOptions) :
    argument = ['-', '-'] := by
  unfold ofText at h
  split at h
  · rfl
  · simp only [ofLong] at h
    split at h <;> cases h
  all_goals cases h

end Argument

/-- With an end of the options behind them, arguments can be followed by a text of any form. -/
theorem Reads.append_line {arguments : List Text} {steps : List Step} (h : Reads arguments steps)
    (hend : ['-', '-'] ∉ arguments) (line : Text) :
    Reads (arguments ++ [['-', '-'], line]) (steps ++ [.takeExpression line]) := by
  induction h with
  | nil => exact .endOfOptions rfl
  | endOfOptions hform =>
    rw [Argument.ofText_eq_endOfOptions hform] at hend
    simp at hend
  | operand hform _ ih => exact .operand hform (ih (mt (List.mem_cons_of_mem _) hend))
  | switch hform _ ih => exact .switch hform (ih (mt (List.mem_cons_of_mem _) hend))
  | joined hform _ ih => exact .joined hform (ih (mt (List.mem_cons_of_mem _) hend))
  | apart hform _ ih =>
    exact .apart hform (ih (mt (List.mem_cons_of_mem _ ∘ List.mem_cons_of_mem _) hend))

/-! ## Accepted arguments -/

namespace Options

variable {options result : Options} {arguments : List Text} {steps : List Step}

theorem foldlM_map_takeExpression (options : Options) (arguments : List Text) :
    (arguments.map Step.takeExpression).foldlM Step.apply options =
      arguments.foldlM takeExpression options :=
  List.foldlM_map

/-- A step in front of arguments that can be read as steps. -/
theorem exists_steps_cons {step : Step} {rest : List Text}
    (hcons : ∀ steps, Reads rest steps → Reads arguments (step :: steps))
    (h : (do addArguments (← step.apply options) rest) = .ok result)
    (hrest : ∀ next : Options, next.addArguments rest = .ok result →
      ∃ steps, Reads rest steps ∧ steps.foldlM Step.apply next = .ok result) :
    ∃ steps, Reads arguments steps ∧ steps.foldlM Step.apply options = .ok result := by
  obtain ⟨next, hnext, h⟩ := exists_of_bind_eq_ok h
  obtain ⟨steps, hreads, hsteps⟩ := hrest next h
  refine ⟨step :: steps, hcons steps hreads, ?_⟩
  rw [List.foldlM_cons, hnext]
  exact hsteps

theorem exists_steps_of_addArguments (h : options.addArguments arguments = .ok result) :
    ∃ steps, Reads arguments steps ∧ steps.foldlM Step.apply options = .ok result := by
  induction options, arguments using addArguments.induct with
  | case1 options => exact ⟨[], .nil, h⟩
  | case2 options argument arguments hform =>
    rw [addArguments, hform] at h
    exact ⟨_, .endOfOptions hform, by rwa [foldlM_map_takeExpression]⟩
  | case3 options argument arguments hform | case4 options argument arguments hform
  | case8 options argument _ hform =>
    rw [addArguments, hform] at h
    cases h
  | case5 options argument arguments text hform ih =>
    rw [addArguments, hform] at h
    exact exists_steps_cons (fun _ => .operand hform) h ih
  | case6 options argument arguments switch hform ih =>
    rw [addArguments, hform] at h
    exact exists_steps_cons (fun _ => .switch hform) h ih
  | case7 options argument arguments setting value hform ih =>
    rw [addArguments, hform] at h
    exact exists_steps_cons (fun _ => .joined hform) h ih
  | case9 options argument setting hform value arguments ih =>
    rw [addArguments, hform] at h
    exact exists_steps_cons (fun _ => .apart hform) h ih

/-- Arguments are read like the first of their steps and then the others. -/
theorem addArguments_of_reads (hreads : Reads arguments steps)
    (h : steps.foldlM Step.apply options = .ok result) :
    options.addArguments arguments = .ok result := by
  induction hreads generalizing options with
  | nil => exact h
  | endOfOptions hform =>
    rw [foldlM_map_takeExpression] at h
    rw [addArguments, hform]
    exact h
  | operand hform _ ih | switch hform _ ih | joined hform _ ih | apart hform _ ih =>
    obtain ⟨next, hnext, hrest⟩ := exists_of_bind_eq_ok h
    rw [Step.apply] at hnext
    rw [addArguments, hform]
    simp only [hnext]
    exact ih hrest

/-- **Accepted arguments** are those that can be read as steps that can be taken. -/
theorem addArguments_eq_ok_iff :
    options.addArguments arguments = .ok result ↔
      ∃ steps, Reads arguments steps ∧ steps.foldlM Step.apply options = .ok result :=
  ⟨exists_steps_of_addArguments, fun ⟨_, hreads, h⟩ => addArguments_of_reads hreads h⟩

/-- Behind the end of the options a line is an expression, whatever it looks like. -/
theorem addArguments_line {line : Text} (h : options.addArguments arguments = .ok result)
    (hend : ['-', '-'] ∉ arguments) (hnone : result.expression? = none) :
    options.addArguments (arguments ++ [['-', '-'], line]) =
      .ok { result with expression? := some line } := by
  obtain ⟨steps, hreads, hsteps⟩ := exists_steps_of_addArguments h
  refine addArguments_of_reads (hreads.append_line hend line) ?_
  rw [List.foldlM_append, hsteps]
  show [Step.takeExpression line].foldlM Step.apply result = _
  rw [List.foldlM_cons, Step.apply, takeExpression, hnone]
  rfl

end Options

end RomanInvoice.Command
