import Mathlib.Algebra.Group.Nat.Defs
import Mathlib.Data.List.Induction
import Mathlib.Data.List.Nodup
import RomanInvoice.Command.Run
import RomanInvoice.Proofs.Arguments
import RomanInvoice.Proofs.Glyph
import RomanInvoice.Proofs.Switches

/-!
# Command lines — what they spell is what is run

A command line is written in parts: switches, settings with a number, and an expression. Options are
the requests that can be made, each of them once (`Options.requests`), and a command line is
accepted exactly if its parts make, in some order, the requests of the options that it gives
(`Options.ofArguments_eq_ok_iff`). So all ways to write the same requests run alike, and no part of
an accepted command line asks for what another one asks for, or sets a limit out of range.
-/

namespace RomanInvoice

/-! ## Numbers of settings -/

namespace Decimal

variable {digits : Text}

theorem value_eq_ofDigitChars (digits : Text) :
    value digits = Nat.ofDigitChars 10 digits 0 := rfl

theorem value_zeros_append (zeros n : Nat) :
    value (List.replicate zeros '0' ++ (toString n).toList) = n := by
  rw [value_eq_ofDigitChars, Nat.ofDigitChars_append, Nat.ofDigitChars_replicate_zero, Nat.mul_zero,
    Nat.toString_eq_repr, Nat.toList_repr, Nat.ofDigitChars_ten_toDigits]

theorem isDigit_zeros_append (zeros n : Nat) :
    ∀ c ∈ List.replicate zeros '0' ++ (toString n).toList, c.isDigit := by
  rw [Nat.toString_eq_repr, Nat.toList_repr]
  refine List.forall_mem_append.2 ⟨?_, ?_⟩
  · intro c hc
    rw [List.eq_of_mem_replicate hc]
    rfl
  · exact fun c => Nat.isDigit_of_mem_toDigits (by decide) (by decide)

theorem zeros_append_ne_nil (zeros n : Nat) :
    List.replicate zeros '0' ++ (toString n).toList ≠ [] := by
  rw [Nat.toString_eq_repr, Nat.toList_repr]
  exact List.append_ne_nil_of_right_ne_nil _ Nat.toDigits_ne_nil

/-- A digit is the one that writes its value. -/
theorem exists_digitChar {c : Char} (h : c.isDigit) :
    ∃ n < 10, digitValue c = n ∧ c = n.digitChar := by
  rw [isDigit_iff] at h
  obtain ⟨n, hn⟩ := Nat.exists_eq_add_of_le h.1
  have hlt : n < 10 := by omega
  have hchar : c = n.digitChar := by
    rw [← Char.toNat_inj, Nat.toNat_digitChar_of_lt_ten hlt, hn]
  refine ⟨n, hlt, ?_, hchar⟩
  rw [hchar]
  exact Nat.toNat_digitChar_sub_48_of_lt_ten hlt

/-- A run of digits is its value in decimal form, with zeros in front. -/
theorem exists_zeros (hne : digits ≠ []) (hdigits : ∀ c ∈ digits, c.isDigit) :
    ∃ zeros, digits = List.replicate zeros '0' ++ (toString (value digits)).toList := by
  simp only [Nat.toString_eq_repr, Nat.toList_repr]
  induction digits using List.reverseRecOn with
  | nil => exact absurd rfl hne
  | append_singleton front c ih =>
    obtain ⟨hfront, hc⟩ := List.forall_mem_append.1 hdigits
    obtain ⟨n, hlt, hn, rfl⟩ := exists_digitChar (hc c List.mem_cons_self)
    have hvalue : value (front ++ [n.digitChar]) = 10 * value front + n := by
      rw [value, List.foldl_append, ← value, List.foldl_cons, List.foldl_nil, hn]
    rw [hvalue]
    by_cases hnil : front = []
    · subst hnil
      refine ⟨0, ?_⟩
      rw [value, List.foldl_nil, Nat.mul_zero, Nat.zero_add, Nat.toDigits_of_lt_base hlt]
      rfl
    obtain ⟨zeros, hzeros⟩ := ih hnil hfront
    rcases Nat.eq_zero_or_pos (value front) with hzero | hpos
    · -- the digits in front are zeros, the last of them included
      refine ⟨zeros + 1, ?_⟩
      rw [hzero, Nat.toDigits_zero] at hzeros
      rw [hzero, Nat.mul_zero, Nat.zero_add, Nat.toDigits_of_lt_base hlt, List.replicate_succ',
        ← hzeros]
    · refine ⟨zeros, ?_⟩
      rw [← Nat.toDigits_append_toDigits (by decide) hpos hlt, Nat.toDigits_of_lt_base hlt,
        ← List.append_assoc, ← hzeros]

end Decimal

namespace Command

/-- The texts that write a number: its decimal form, with any zeros and perhaps a plus in front. -/
inductive NumberForm (n : Nat) : Text → Prop where
  | bare (zeros : Nat) : NumberForm n (List.replicate zeros '0' ++ (toString n).toList)
  | plus (zeros : Nat) : NumberForm n ('+' :: (List.replicate zeros '0' ++ (toString n).toList))

/-- A text without a plus in front. -/
def unsigned : Text → Text
  | '+' :: digits => digits
  | digits => digits

section Numbers

variable {text : Text} {n m : Nat}

theorem limit?_eq (text : Text) :
    limit? text =
      if unsigned text ≠ [] ∧ (unsigned text).all Char.isDigit ∧
          0 < Decimal.value (unsigned text) ∧ Decimal.value (unsigned text) < UInt64.size then
        some (Decimal.value (unsigned text))
      else none := rfl

theorem unsigned_of_isDigit (h : ∀ c ∈ text, c.isDigit) : unsigned text = text := by
  unfold unsigned
  split
  · exact absurd (h '+' List.mem_cons_self) (by decide)
  · rfl

/-- A text writes a number if it is a run of digits of this value, but for a plus in front. -/
theorem numberForm_iff :
    NumberForm n text ↔ unsigned text ≠ [] ∧ (∀ c ∈ unsigned text, c.isDigit) ∧
      Decimal.value (unsigned text) = n := by
  constructor
  · intro h
    obtain ⟨zeros, hzeros⟩ :
        ∃ zeros, unsigned text = List.replicate zeros '0' ++ (toString n).toList := by
      cases h with
      | bare zeros => exact ⟨zeros, unsigned_of_isDigit (Decimal.isDigit_zeros_append zeros n)⟩
      | plus zeros => exact ⟨zeros, rfl⟩
    rw [hzeros]
    exact ⟨Decimal.zeros_append_ne_nil zeros n, Decimal.isDigit_zeros_append zeros n,
      Decimal.value_zeros_append zeros n⟩
  · rintro ⟨hne, hdigits, hvalue⟩
    obtain ⟨zeros, hzeros⟩ := Decimal.exists_zeros hne hdigits
    rw [hvalue] at hzeros
    unfold unsigned at hzeros
    split at hzeros
    · rw [hzeros]
      exact .plus zeros
    · rw [hzeros]
      exact .bare zeros

/-- A text writes one number at most. -/
theorem NumberForm.unique (h : NumberForm n text) (h' : NumberForm m text) : n = m :=
  (numberForm_iff.1 h).2.2.symm.trans (numberForm_iff.1 h').2.2

/-- A setting takes the numbers of 64 bits but zero. -/
theorem limit?_eq_some_iff :
    limit? text = some n ↔ NumberForm n text ∧ 1 ≤ n ∧ n ≤ 2 ^ 64 - 1 := by
  have hsize (n : Nat) : n < UInt64.size ↔ n ≤ 2 ^ 64 - 1 := Nat.lt_iff_le_pred (by decide)
  rw [limit?_eq, Option.ite_none_right_eq_some, numberForm_iff, List.all_eq_true, hsize]
  constructor
  · rintro ⟨⟨hne, hdigits, hpos, hle⟩, ⟨⟩⟩
    exact ⟨⟨hne, hdigits, rfl⟩, hpos, hle⟩
  · rintro ⟨⟨hne, hdigits, rfl⟩, hpos, hle⟩
    exact ⟨⟨hne, hdigits, hpos, hle⟩, rfl⟩

end Numbers

/-! ## Parts of a command line -/

/-- The argument that names a setting. -/
def Setting.argument : Setting → Text
  | maxLength => "--max-length".toList
  | maxTokens => "--max-tokens".toList

/-- `CommandLine arguments steps`: the arguments are written in parts that ask for the steps. -/
inductive CommandLine : List Text → List Step → Prop where
  | nil : CommandLine [] []
  | switch (switch : Switch) {arguments : List Text} {steps : List Step} :
    CommandLine arguments steps →
    CommandLine (switch.argument :: arguments) (.turnOn switch :: steps)
  /-- A setting with its value in the next argument. -/
  | apart (setting : Setting) (value : Text) {arguments : List Text} {steps : List Step} :
    CommandLine arguments steps →
    CommandLine (setting.argument :: value :: arguments) (.assign setting value :: steps)
  /-- A setting with its value behind an equals sign. -/
  | joined (setting : Setting) (value : Text) {arguments : List Text} {steps : List Step} :
    CommandLine arguments steps →
    CommandLine ((setting.argument ++ '=' :: value) :: arguments) (.assign setting value :: steps)
  /-- An expression that could not be taken for an option. -/
  | operand {text : Text} {arguments : List Text} {steps : List Step} :
    text.head? ≠ some '-' ∨ text = ['-'] → CommandLine arguments steps →
    CommandLine (text :: arguments) (.takeExpression text :: steps)
  /-- Behind two dashes there are only expressions. -/
  | endOfOptions (texts : List Text) :
    CommandLine (['-', '-'] :: texts) (texts.map .takeExpression)

namespace Argument

variable {argument text value : Text} {switch : Switch} {setting : Setting}

theorem ofText_setting (setting : Setting) : ofText setting.argument = .setting setting none := by
  cases setting <;> rfl

theorem ofText_joined (setting : Setting) (value : Text) :
    ofText (setting.argument ++ '=' :: value) = .setting setting (some value) := by
  cases setting <;> rfl

theorem ofText_operand (h : text.head? ≠ some '-' ∨ text = ['-']) :
    ofText text = .operand text := by
  unfold ofText
  split <;> simp_all

/-- An argument behind its dashes is its name and what comes from the equals sign on. -/
theorem eq_of_name {name : String} {rest : Text}
    (hname : String.ofList (text.takeWhile (· ≠ '=')) = name)
    (hrest : text.dropWhile (· ≠ '=') = rest) : text = name.toList ++ rest := by
  rw [← hname, ← hrest, String.toList_ofList, List.takeWhile_append_dropWhile]

theorem eq_of_dropWhile {c : Char} {rest : Text} (h : text.dropWhile (· ≠ '=') = c :: rest) :
    c = '=' := by
  have hhead := List.head?_dropWhile_not (· ≠ '=') text
  rw [h] at hhead
  simpa using hhead

/-- `Form argument kind`: what an argument of a kind is written like. -/
inductive Form : Text → Argument → Prop where
  | endOfOptions : Form ['-', '-'] .endOfOptions
  | switch (switch : Switch) : Form switch.argument (.switch switch)
  | setting (setting : Setting) : Form setting.argument (.setting setting none)
  | joined (setting : Setting) (value : Text) :
    Form (setting.argument ++ '=' :: value) (.setting setting (some value))
  | operand {text : Text} : text.head? ≠ some '-' ∨ text = ['-'] → Form text (.operand text)
  | help {argument : Text} : Form argument .help
  | unknown {argument : Text} : Form argument .unknown

theorem form_ofLong (text : Text) : Form ('-' :: '-' :: text) (ofLong text) := by
  unfold ofLong
  dsimp only
  split
  case h_1 => exact .help
  case h_2 hname hrest =>
    rw [eq_of_name hname hrest]
    exact .switch .normalized
  case h_3 hname hrest =>
    rw [eq_of_name hname hrest]
    exact .switch .debugTokens
  case h_4 hname hrest =>
    rw [eq_of_name hname hrest]
    exact .setting .maxLength
  case h_5 hname hrest =>
    rw [eq_of_name hname hrest]
    exact .setting .maxTokens
  case h_6 hname hrest =>
    rw [eq_of_name hname hrest, eq_of_dropWhile hrest]
    exact .joined .maxLength _
  case h_7 hname hrest =>
    rw [eq_of_name hname hrest, eq_of_dropWhile hrest]
    exact .joined .maxTokens _
  case h_8 => exact .unknown

theorem form_ofText (argument : Text) : Form argument (ofText argument) := by
  unfold ofText
  split
  case h_1 => exact .endOfOptions
  case h_2 text _ => exact form_ofLong text
  case h_3 => exact .help
  case h_4 => exact .unknown
  case h_5 _ _ _ hlong =>
    refine .operand ?_
    match argument with
    | [] => exact .inl (by simp)
    | [c] => exact (eq_or_ne c '-').symm.imp (by simp) (by simp)
    | c :: d :: rest =>
      refine .inl fun hhead => hlong d rest ?_
      rw [Option.some.inj hhead]

end Argument

section CommandLine

variable {arguments : List Text} {steps other : List Step}

theorem Reads.commandLine (h : Reads arguments steps) : CommandLine arguments steps := by
  have hform (argument : Text) := Argument.form_ofText argument
  induction h with
  | nil => exact .nil
  | endOfOptions hof =>
    cases hof ▸ hform _
    exact .endOfOptions _
  | operand hof _ ih =>
    cases hof ▸ hform _ with
    | operand hoperand => exact .operand hoperand ih
  | switch hof _ ih =>
    cases hof ▸ hform _
    exact .switch _ ih
  | joined hof _ ih =>
    cases hof ▸ hform _
    exact .joined _ _ ih
  | apart hof _ ih =>
    cases hof ▸ hform _
    exact .apart _ _ ih

theorem CommandLine.reads (h : CommandLine arguments steps) : Reads arguments steps := by
  induction h with
  | nil => exact .nil
  | switch switch _ ih => exact .switch (Argument.ofText_switch switch) ih
  | apart setting value _ ih => exact .apart (Argument.ofText_setting setting) ih
  | joined setting value _ ih => exact .joined (Argument.ofText_joined setting value) ih
  | operand hoperand _ ih => exact .operand (Argument.ofText_operand hoperand) ih
  | endOfOptions texts => exact .endOfOptions rfl

theorem Reads.unique (h : Reads arguments steps) (h' : Reads arguments other) : steps = other := by
  induction h generalizing other with
  | nil =>
    cases h'
    rfl
  | endOfOptions hof =>
    cases h' with
    | endOfOptions => rfl
    | operand hof' | switch hof' | joined hof' | apart hof' => cases hof.symm.trans hof'
  | operand hof _ ih | switch hof _ ih | joined hof _ ih | apart hof _ ih =>
    cases h' with
    | endOfOptions hof' => cases hof.symm.trans hof'
    | operand hof' hrest | switch hof' hrest | joined hof' hrest | apart hof' hrest =>
      cases hof.symm.trans hof' <;> rw [ih hrest]

/-- A command line is written in one way only. -/
theorem CommandLine.unique (h : CommandLine arguments steps) (h' : CommandLine arguments other) :
    steps = other :=
  h.reads.unique h'.reads

end CommandLine

/-! ## Requests -/

/-- What can be asked for once. -/
inductive Slot where
  | switch (switch : Switch)
  | setting (setting : Setting)
  | expression
  deriving DecidableEq, Repr

/-- What is asked for, with its value. -/
inductive Request where
  | turnOn (switch : Switch)
  | limit (setting : Setting) (n : Nat)
  | expression (text : Text)
  deriving DecidableEq, Repr

/-- What a request asks for, without its value. -/
def Request.slot : Request → Slot
  | turnOn switch => .switch switch
  | limit setting _ => .setting setting
  | expression _ => .expression

namespace Step

/-- What a step asks for, without its value. -/
def slot : Step → Slot
  | turnOn switch => .switch switch
  | assign setting _ => .setting setting
  | takeExpression _ => .expression

/-- The request that a step makes, if its value is one. -/
def request? : Step → Option Request
  | turnOn switch => some (.turnOn switch)
  | assign setting value => (limit? value).map (.limit setting)
  | takeExpression text => some (.expression text)

theorem slot_of_request? {step : Step} {request : Request} (h : step.request? = some request) :
    request.slot = step.slot := by
  cases step with
  | turnOn switch =>
    cases h
    rfl
  | assign setting value =>
    obtain ⟨n, _, rfl⟩ := Option.map_eq_some_iff.1 h
    rfl
  | takeExpression text =>
    cases h
    rfl

end Step

namespace Options

/-- What options ask for in a slot. -/
def request? (options : Options) : Slot → Option Request
  | .switch switch => if options.isOn switch then some (.turnOn switch) else none
  | .setting .maxLength => options.maxLength?.map (.limit .maxLength)
  | .setting .maxTokens => options.maxTokens?.map (.limit .maxTokens)
  | .expression => options.expression?.map .expression

/-- The requests of options for anything but an expression, in a fixed order. -/
def choices (options : Options) : List Request :=
  [.switch .normalized, .switch .debugTokens, .setting .maxLength,
    .setting .maxTokens].filterMap options.request?

/-- All requests of options. -/
def requests (options : Options) : List Request :=
  options.choices ++ (options.request? .expression).toList

/-- Options to which a request is added. -/
def granting (options : Options) : Request → Options
  | .turnOn switch => options.switchedOn switch
  | .limit .maxLength n => { options with maxLength? := some n }
  | .limit .maxTokens n => { options with maxTokens? := some n }
  | .expression text => { options with expression? := some text }

section Requests

variable {options other next result : Options} {request : Request} {requests : List Request}
  {slot : Slot} {step : Step} {steps : List Step}

theorem requests_eq_filterMap (options : Options) :
    options.requests = [.switch .normalized, .switch .debugTokens, .setting .maxLength,
      .setting .maxTokens, .expression].filterMap options.request? := by
  have hexpression : (options.request? .expression).toList =
      [Slot.expression].filterMap options.request? := by
    cases h : options.request? .expression <;> simp [h]
  rw [requests, choices, hexpression, ← List.filterMap_append]
  rfl

theorem slot_of_request? (h : options.request? slot = some request) : request.slot = slot := by
  unfold request? at h
  split at h
  · cases (Option.ite_none_right_eq_some.1 h).2
    rfl
  all_goals
    obtain ⟨_, _, rfl⟩ := Option.map_eq_some_iff.1 h
    rfl

theorem mem_requests_iff :
    request ∈ options.requests ↔ options.request? request.slot = some request := by
  rw [requests_eq_filterMap, List.mem_filterMap]
  constructor
  · rintro ⟨slot, _, h⟩
    rwa [slot_of_request? h]
  · intro h
    refine ⟨request.slot, ?_, h⟩
    cases request.slot with
    | switch switch => cases switch <;> decide
    | setting setting => cases setting <;> decide
    | expression => decide

/-- Nothing is asked for twice. -/
theorem nodup_slots (options : Options) : (options.requests.map Request.slot).Nodup := by
  have hsublist (slots : List Slot) :
      ((slots.filterMap options.request?).map Request.slot).Sublist slots := by
    induction slots with
    | nil => exact .slnil
    | cons slot slots ih =>
      cases h : options.request? slot with
      | none =>
        rw [List.filterMap_cons_none h]
        exact ih.cons slot
      | some request =>
        rw [List.filterMap_cons_some h, List.map_cons, slot_of_request? h]
        exact ih.cons_cons slot
  rw [requests_eq_filterMap]
  exact (hsublist _).nodup (by decide)

/-- Options are known by their requests. -/
theorem eq_of_requests_perm (h : options.requests.Perm other.requests) : options = other := by
  have hrequest (slot : Slot) : options.request? slot = other.request? slot := by
    refine Option.ext fun request => ⟨fun hrequest => ?_, fun hrequest => ?_⟩
    · obtain rfl := slot_of_request? hrequest
      exact mem_requests_iff.1 (h.mem_iff.1 (mem_requests_iff.2 hrequest))
    · obtain rfl := slot_of_request? hrequest
      exact mem_requests_iff.1 (h.mem_iff.2 (mem_requests_iff.2 hrequest))
  have hswitch (switch : Switch) : options.isOn switch = other.isOn switch := by
    have hsome := congrArg Option.isSome (hrequest (.switch switch))
    cases hon : options.isOn switch <;> cases hother : other.isOn switch <;>
      simp [request?, hon, hother] at hsome ⊢
  have hmaxLength : options.maxLength? = other.maxLength? :=
    Option.map_injective (fun _ _ => fun heq => (Request.limit.inj heq).2)
      (hrequest (.setting .maxLength))
  have hmaxTokens : options.maxTokens? = other.maxTokens? :=
    Option.map_injective (fun _ _ => fun heq => (Request.limit.inj heq).2)
      (hrequest (.setting .maxTokens))
  have hexpression : options.expression? = other.expression? :=
    Option.map_injective (fun _ _ => Request.expression.inj) (hrequest .expression)
  have hnormalized : options.normalized = other.normalized := hswitch .normalized
  have hdebugTokens : options.debugTokens = other.debugTokens := hswitch .debugTokens
  cases options
  cases other
  simp_all

/-- A step is taken if it makes a request in a slot that is free. -/
theorem apply_eq (step : Step) (options : Options) :
    step.apply options =
      match step.request? with
      | none => .error .usage
      | some request =>
        if options.request? request.slot = none then .ok (options.granting request)
        else .error .usage := by
  cases step with
  | turnOn switch =>
    rw [Step.apply, turnOn_eq]
    cases h : options.isOn switch <;> simp [Step.request?, request?, Request.slot, granting, h]
  | assign setting value =>
    obtain ⟨normalized, debugTokens, maxLength?, maxTokens?, expression?⟩ := options
    simp only [Step.apply, Step.request?, assign]
    cases limit? value with
    | none => rfl
    | some n =>
      cases setting with
      | maxLength => cases maxLength? <;> rfl
      | maxTokens => cases maxTokens? <;> rfl
  | takeExpression text =>
    obtain ⟨normalized, debugTokens, maxLength?, maxTokens?, expression?⟩ := options
    cases expression? <;> rfl

/-- A request changes what is asked for in its own slot, and nothing else. -/
theorem request?_granting (options : Options) (request : Request) (slot : Slot) :
    (options.granting request).request? slot =
      if slot = request.slot then some request else options.request? slot := by
  cases request with
  | turnOn switch =>
    rcases slot with (_ | _) | (_ | _) | _ <;> cases switch <;> rfl
  | limit setting n =>
    rcases slot with (_ | _) | (_ | _) | _ <;> cases setting <;> rfl
  | expression text => rcases slot with (_ | _) | (_ | _) | _ <;> rfl

theorem requests_granting (h : options.request? request.slot = none) :
    (options.granting request).requests.Perm (request :: options.requests) := by
  have hnodup (options : Options) : options.requests.Nodup := .of_map _ (nodup_slots options)
  have hnew : request ∉ options.requests := by
    rw [mem_requests_iff, h]
    exact nofun
  refine (List.perm_ext_iff_of_nodup (hnodup _) (List.nodup_cons.2 ⟨hnew, hnodup _⟩)).2 ?_
  intro other
  rw [mem_requests_iff, request?_granting, List.mem_cons, mem_requests_iff]
  split
  · next hslot =>
    rw [hslot, h]
    simp [eq_comm]
  · next hslot =>
    have hne : other ≠ request := by
      rintro rfl
      exact hslot rfl
    simp [hne]

/-- A step that is taken makes a request by which the options grow. -/
theorem exists_request_of_apply (h : step.apply options = .ok next) :
    ∃ request, step.request? = some request ∧
      next.requests.Perm (request :: options.requests) := by
  rw [apply_eq] at h
  cases hrequest : step.request? with
  | none =>
    rw [hrequest] at h
    cases h
  | some request =>
    rw [hrequest] at h
    dsimp only at h
    split at h
    · next hfree =>
      cases h
      exact ⟨request, rfl, requests_granting hfree⟩
    · cases h

/-- **Steps that can be taken** are those that make the requests by which the options grow. -/
theorem foldlM_apply_eq_ok_iff : steps.foldlM Step.apply options = .ok result ↔
    ∃ requests, steps.map Step.request? = requests.map some ∧
      result.requests.Perm (requests ++ options.requests) := by
  constructor
  · intro h
    induction steps generalizing options with
    | nil =>
      cases h
      exact ⟨[], rfl, .refl _⟩
    | cons step steps ih =>
      obtain ⟨next, hnext, hrest⟩ := exists_of_bind_eq_ok h
      obtain ⟨request, hrequest, hgrown⟩ := exists_request_of_apply hnext
      obtain ⟨requests, hrequests, hresult⟩ := ih hrest
      refine ⟨request :: requests, by rw [List.map_cons, List.map_cons, hrequest, hrequests], ?_⟩
      exact hresult.trans ((hgrown.append_left requests).trans List.perm_middle)
  · rintro ⟨requests, hrequests, hresult⟩
    induction steps generalizing options requests with
    | nil =>
      obtain rfl := List.map_eq_nil_iff.1 hrequests.symm
      rw [eq_of_requests_perm hresult]
      rfl
    | cons step steps ih =>
      obtain ⟨request, rest, rfl, hrequest, hrest⟩ := List.map_eq_cons_iff.1 hrequests.symm
      -- two requests in one slot do not fit into the result
      have hfree : options.request? request.slot = none := by
        refine Option.eq_none_iff_forall_ne_some.2 fun other hother => ?_
        have hnodup := (hresult.map Request.slot).nodup_iff.1 result.nodup_slots
        rw [List.cons_append, List.map_cons, List.nodup_cons] at hnodup
        have hslot := slot_of_request? hother
        have hmem : other ∈ options.requests := mem_requests_iff.2 (hslot ▸ hother)
        exact hnodup.1 (List.mem_map.2 ⟨other, List.mem_append_right rest hmem, hslot⟩)
      have happly : step.apply options = .ok (options.granting request) := by
        rw [apply_eq, ← hrequest]
        exact if_pos hfree
      rw [List.foldlM_cons, happly]
      refine ih rest hrest.symm (hresult.trans ?_)
      exact List.perm_middle.symm.trans ((requests_granting hfree).symm.append_left rest)

/-- **Accepted command lines** are those whose parts make the requests of the options that they
give, in some order. -/
theorem ofArguments_eq_ok_iff {arguments : List Text} : ofArguments arguments = .ok options ↔
    ∃ steps, CommandLine arguments steps ∧
      ∃ requests, steps.map Step.request? = requests.map some ∧
        options.requests.Perm requests := by
  have hnone : requests {} = [] := rfl
  have happend (requests : List Request) : requests = requests ++ Options.requests {} := by
    rw [hnone, List.append_nil]
  constructor
  · intro h
    obtain ⟨steps, hreads, hsteps⟩ := addArguments_eq_ok_iff.1 h
    obtain ⟨requests, hrequests, hperm⟩ := foldlM_apply_eq_ok_iff.1 hsteps
    exact ⟨steps, hreads.commandLine, requests, hrequests, happend requests ▸ hperm⟩
  · rintro ⟨steps, hline, requests, hrequests, hperm⟩
    refine addArguments_eq_ok_iff.2 ⟨steps, hline.reads, ?_⟩
    exact foldlM_apply_eq_ok_iff.2 ⟨requests, hrequests, happend requests ▸ hperm⟩

end Requests

end Options

/-! ## Spellings of requests -/

/-- The ways to write requests one after the other, none of them for an expression. -/
inductive Request.Spelled : List Request → List Text → Prop where
  | nil : Spelled [] []
  | turnOn (switch : Switch) {requests : List Request} {arguments : List Text} :
    Spelled requests arguments → Spelled (.turnOn switch :: requests) (switch.argument :: arguments)
  | apart (setting : Setting) {n : Nat} {value : Text} {requests : List Request}
    {arguments : List Text} : NumberForm n value → Spelled requests arguments →
    Spelled (.limit setting n :: requests) (setting.argument :: value :: arguments)
  | joined (setting : Setting) {n : Nat} {value : Text} {requests : List Request}
    {arguments : List Text} : NumberForm n value → Spelled requests arguments →
    Spelled (.limit setting n :: requests) ((setting.argument ++ '=' :: value) :: arguments)

namespace Options

/-- The end of a command line: an expression behind two dashes, or nothing. -/
def lastArguments (options : Options) : List Text :=
  match options.expression? with
  | none => []
  | some text => [['-', '-'], text]

/-- A command line that lists what is chosen, once each in any order, and then the expression. -/
def SpelledBy (options : Options) (arguments : List Text) : Prop :=
  ∃ choices line, choices.Perm options.choices ∧ Request.Spelled choices line ∧
    arguments = line ++ options.lastArguments

end Options

section Spelling

variable {options : Options} {arguments last : List Text} {steps lastSteps : List Step}
  {requests : List Request}

/-- What a spelling of requests in range asks for, with something behind it. -/
theorem Request.Spelled.exists_steps (h : Spelled requests arguments)
    (hrange : ∀ setting n, .limit setting n ∈ requests → 1 ≤ n ∧ n ≤ 2 ^ 64 - 1)
    (hlast : CommandLine last lastSteps) :
    ∃ steps, CommandLine (arguments ++ last) (steps ++ lastSteps) ∧
      steps.map Step.request? = requests.map some := by
  have hlimit {setting : Setting} {n : Nat} {value : Text} {requests : List Request}
      (hvalue : NumberForm n value)
      (hrange : ∀ setting' m, .limit setting' m ∈ Request.limit setting n :: requests →
        1 ≤ m ∧ m ≤ 2 ^ 64 - 1) :
      (Step.assign setting value).request? = some (.limit setting n) := by
    rw [Step.request?, limit?_eq_some_iff.2 ⟨hvalue, hrange setting n List.mem_cons_self⟩]
    rfl
  induction h with
  | nil => exact ⟨[], hlast, rfl⟩
  | turnOn switch _ ih =>
    obtain ⟨steps, hline, hsteps⟩ := ih fun _ _ h => hrange _ _ (List.mem_cons_of_mem _ h)
    exact ⟨.turnOn switch :: steps, .switch switch hline, by rw [List.map_cons, hsteps]; rfl⟩
  | apart setting hvalue _ ih =>
    obtain ⟨steps, hline, hsteps⟩ := ih fun _ _ h => hrange _ _ (List.mem_cons_of_mem _ h)
    refine ⟨.assign setting _ :: steps, .apart setting _ hline, ?_⟩
    rw [List.map_cons, hlimit hvalue hrange, hsteps]
    rfl
  | joined setting hvalue _ ih =>
    obtain ⟨steps, hline, hsteps⟩ := ih fun _ _ h => hrange _ _ (List.mem_cons_of_mem _ h)
    refine ⟨.assign setting _ :: steps, .joined setting _ hline, ?_⟩
    rw [List.map_cons, hlimit hvalue hrange, hsteps]
    rfl

theorem Options.exists_steps_lastArguments (options : Options) :
    ∃ steps, CommandLine options.lastArguments steps ∧
      steps.map Step.request? = (options.request? .expression).toList.map some := by
  unfold lastArguments request?
  cases options.expression? with
  | none => exact ⟨[], .nil, rfl⟩
  | some text => exact ⟨[.takeExpression text], .endOfOptions [text], rfl⟩

/-- All spellings of options with numbers in range are accepted. -/
theorem Options.SpelledBy.ofArguments_eq_ok (h : options.SpelledBy arguments)
    (hlength : ∀ n, options.maxLength? = some n → 1 ≤ n ∧ n ≤ 2 ^ 64 - 1)
    (htokens : ∀ n, options.maxTokens? = some n → 1 ≤ n ∧ n ≤ 2 ^ 64 - 1) :
    Options.ofArguments arguments = .ok options := by
  obtain ⟨choices, line, hchoices, hspelled, rfl⟩ := h
  have hrange : ∀ setting n, .limit setting n ∈ choices → 1 ≤ n ∧ n ≤ 2 ^ 64 - 1 := by
    intro setting n hmem
    have hrequest := mem_requests_iff.1 (List.mem_append_left _ (hchoices.mem_iff.1 hmem))
    cases setting with
    | maxLength => exact hlength n (by simpa [Request.slot, request?] using hrequest)
    | maxTokens => exact htokens n (by simpa [Request.slot, request?] using hrequest)
  obtain ⟨lastSteps, hlast, hlastSteps⟩ := options.exists_steps_lastArguments
  obtain ⟨steps, hline, hsteps⟩ := hspelled.exists_steps hrange hlast
  refine ofArguments_eq_ok_iff.2 ⟨steps ++ lastSteps, hline,
    choices ++ (options.request? .expression).toList, ?_, hchoices.symm.append_right _⟩
  rw [List.map_append, List.map_append, hsteps, hlastSteps]

/-- The numbers that the settings of an accepted command line write are in range. -/
theorem numberForm_of_accepted (hrequests : steps.map Step.request? = requests.map some)
    {setting : Setting} {value : Text} (hmem : .assign setting value ∈ steps) :
    ∃ n, NumberForm n value ∧ 1 ≤ n ∧ n ≤ 2 ^ 64 - 1 := by
  have hsome : (Step.assign setting value).request? ∈ requests.map some :=
    hrequests ▸ List.mem_map_of_mem hmem
  obtain ⟨request, _, hrequest⟩ := List.mem_map.1 hsome
  obtain ⟨n, hlimit, _⟩ := Option.map_eq_some_iff.1 hrequest.symm
  exact ⟨n, limit?_eq_some_iff.1 hlimit⟩

theorem Options.range_of_mem_requests (h : Options.ofArguments arguments = .ok options)
    {setting : Setting} {n : Nat} (hmem : .limit setting n ∈ options.requests) :
    1 ≤ n ∧ n ≤ 2 ^ 64 - 1 := by
  obtain ⟨steps, _, requests, hrequests, hperm⟩ := ofArguments_eq_ok_iff.1 h
  have hsome : some (.limit setting n) ∈ steps.map Step.request? :=
    hrequests ▸ List.mem_map_of_mem (hperm.mem_iff.1 hmem)
  obtain ⟨step, _, hstep⟩ := List.mem_map.1 hsome
  cases step with
  | turnOn switch => cases hstep
  | takeExpression text => cases hstep
  | assign other value =>
    obtain ⟨m, hlimit, heq⟩ := Option.map_eq_some_iff.1 hstep
    cases heq
    exact (limit?_eq_some_iff.1 hlimit).2

theorem Options.limits_in_range (h : Options.ofArguments arguments = .ok options) :
    (1 ≤ options.limits.maxLength ∧ options.limits.maxLength ≤ 2 ^ 64 - 1) ∧
      (1 ≤ options.limits.maxTokens ∧ options.limits.maxTokens ≤ 2 ^ 64 - 1) := by
  have hrange (setting : Setting) {usual : Nat} (n? : Option Nat)
      (husual : 1 ≤ usual ∧ usual ≤ 2 ^ 64 - 1)
      (hn : options.request? (.setting setting) = n?.map (.limit setting)) :
      1 ≤ n?.getD usual ∧ n?.getD usual ≤ 2 ^ 64 - 1 := by
    cases n? with
    | none => exact husual
    | some n => exact range_of_mem_requests h (mem_requests_iff.2 hn)
  exact ⟨hrange .maxLength options.maxLength? (by decide) rfl,
    hrange .maxTokens options.maxTokens? (by decide) rfl⟩

theorem map_slot_eq (hrequests : steps.map Step.request? = requests.map some) :
    steps.map Step.slot = requests.map Request.slot := by
  induction steps generalizing requests with
  | nil =>
    obtain rfl := List.map_eq_nil_iff.1 hrequests.symm
    rfl
  | cons step steps ih =>
    obtain ⟨request, rest, rfl, hrequest, hrest⟩ := List.map_eq_cons_iff.1 hrequests.symm
    rw [List.map_cons, List.map_cons, Step.slot_of_request? hrequest.symm, ih hrest.symm]

/-- **A command line means what it spells.** Options with numbers in range are given by every
command line that lists what is chosen, once each and in any order, with the expression behind two
dashes; and so all of these run alike. A setting that is left out has its usual value. An accepted
command line can be taken apart, in one way only, and then no two parts ask for the same and every
number is one of 64 bits and not zero. -/
theorem run_as_spelled :
    (∀ options : Options,
      (∀ n, options.maxLength? = some n → 1 ≤ n ∧ n ≤ 2 ^ 64 - 1) →
      (∀ n, options.maxTokens? = some n → 1 ≤ n ∧ n ≤ 2 ^ 64 - 1) →
      ∀ arguments, options.SpelledBy arguments →
        Options.ofArguments arguments = .ok options ∧
        options.limits = ⟨options.maxLength?.getD ({} : Limits).maxLength,
          options.maxTokens?.getD ({} : Limits).maxTokens⟩ ∧
        ∀ input, run arguments input = .ok (options.run input)) ∧
    ∀ arguments options, Options.ofArguments arguments = .ok options →
      (1 ≤ options.limits.maxLength ∧ options.limits.maxLength ≤ 2 ^ 64 - 1) ∧
      (1 ≤ options.limits.maxTokens ∧ options.limits.maxTokens ≤ 2 ^ 64 - 1) ∧
      ∃ steps, (∀ other, CommandLine arguments other ↔ other = steps) ∧
        (steps.map Step.slot).Nodup ∧
        ∀ setting value, .assign setting value ∈ steps →
          (∃ n, NumberForm n value) ∧ ∀ n, NumberForm n value → 1 ≤ n ∧ n ≤ 2 ^ 64 - 1 := by
  refine ⟨?_, ?_⟩
  · intro options hlength htokens arguments hspelled
    have hoptions := hspelled.ofArguments_eq_ok hlength htokens
    exact ⟨hoptions, rfl, fun input => run_of_options hoptions⟩
  · intro arguments options h
    obtain ⟨hlength, htokens⟩ := Options.limits_in_range h
    obtain ⟨steps, hline, requests, hrequests, hperm⟩ := Options.ofArguments_eq_ok_iff.1 h
    refine ⟨hlength, htokens, steps, ?_, ?_, ?_⟩
    · exact fun other => ⟨fun hother => hother.unique hline, fun heq => heq ▸ hline⟩
    · rw [map_slot_eq hrequests]
      exact (hperm.map Request.slot).nodup_iff.1 options.nodup_slots
    · intro setting value hmem
      obtain ⟨n, hform, hrange⟩ := numberForm_of_accepted hrequests hmem
      exact ⟨⟨n, hform⟩, fun m hm => hm.unique hform ▸ hrange⟩

/-- The greatest number, zeros behind a plus, and an expression that looks like an option. -/
theorem run_as_spelled_reordered :
    let options : Options :=
      { normalized := true, maxLength? := some (2 ^ 64 - 1), maxTokens? := some 7,
        expression? := some "-h".toList }
    let arguments := ["--max-tokens".toList, "+007".toList, "--normalized".toList,
      "--max-length=18446744073709551615".toList, "--".toList, "-h".toList]
    (∀ input, run arguments input = .ok (options.run input)) ∧
      (∀ steps, CommandLine arguments steps → (steps.map Step.slot).Nodup) ∧
      ∀ n, NumberForm n "+007".toList → 1 ≤ n ∧ n ≤ 2 ^ 64 - 1 := by
  intro options arguments
  obtain ⟨hspelled, haccepted⟩ := run_as_spelled
  have hseven : NumberForm 7 "+007".toList := .plus 2
  have hgreatest : NumberForm (2 ^ 64 - 1) "18446744073709551615".toList := .bare 0
  have hchoices : List.Perm
      [.limit .maxTokens 7, .turnOn .normalized, .limit .maxLength (2 ^ 64 - 1)]
      options.choices := by decide
  have hline : Request.Spelled
      [.limit .maxTokens 7, .turnOn .normalized, .limit .maxLength (2 ^ 64 - 1)]
      ["--max-tokens".toList, "+007".toList, "--normalized".toList,
        "--max-length=18446744073709551615".toList] :=
    .apart .maxTokens hseven (.turnOn .normalized (.joined .maxLength hgreatest .nil))
  have hlength : ∀ n, options.maxLength? = some n → 1 ≤ n ∧ n ≤ 2 ^ 64 - 1 := by
    rintro _ ⟨⟩
    decide
  have htokens : ∀ n, options.maxTokens? = some n → 1 ≤ n ∧ n ≤ 2 ^ 64 - 1 := by
    rintro _ ⟨⟩
    decide
  obtain ⟨hoptions, _, hrun⟩ :=
    hspelled options hlength htokens arguments ⟨_, _, hchoices, hline, rfl⟩
  obtain ⟨_, _, steps, hsteps, hnodup, hvalues⟩ := haccepted arguments options hoptions
  have hparts : CommandLine arguments [.assign .maxTokens "+007".toList, .turnOn .normalized,
      .assign .maxLength "18446744073709551615".toList, .takeExpression "-h".toList] :=
    .apart .maxTokens _ (.switch .normalized (.joined .maxLength _ (.endOfOptions ["-h".toList])))
  obtain rfl := (hsteps _).1 hparts
  refine ⟨hrun, fun other hother => ?_, (hvalues .maxTokens _ List.mem_cons_self).2⟩
  rwa [(hsteps other).1 hother]

end Spelling

end Command

end RomanInvoice
