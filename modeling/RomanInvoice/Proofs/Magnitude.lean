import Mathlib.Algebra.Order.Ring.Abs
import Mathlib.Data.List.Basic
import RomanInvoice.Proofs.MaximalMunch
import RomanInvoice.Proofs.Total

/-!
# Magnitude — when no total can overflow

The limits bound the letters of a Roman numeral and the numbers of an expression. So, once there is
a bound for the numbers in digits, no total can come out of the amounts: a partial sum of `k`
numbers is at most `k` times as far from zero as one number may be. The bound on digits is one on
the text, through its longest runs of digits.
-/

namespace RomanInvoice

/-- A run of digits in a text that is as long as it can be. -/
def Text.DigitRun (text run : Text) : Prop :=
  ∃ a b, text = a ++ run ++ b ∧ run ≠ [] ∧ (∀ c ∈ run, c.isDigit) ∧
    (∀ c ∈ a.getLast?, ¬ c.isDigit) ∧ ∀ c ∈ b.head?, ¬ c.isDigit

/-! ## The size of numbers -/

theorem Decimal.foldl_lt {digits : Text} (h : ∀ c ∈ digits, c.isDigit) (n : Nat) :
    digits.foldl (fun n c => 10 * n + digitValue c) n < (n + 1) * 10 ^ digits.length := by
  induction digits generalizing n with
  | nil => simp
  | cons c digits ih =>
    rw [List.forall_mem_cons] at h
    have hc : digitValue c ≤ 9 := by
      have hrange := isDigit_iff.1 h.1
      simp only [digitValue, Char.reduceToNat]
      omega
    calc
      _ < (10 * n + digitValue c + 1) * 10 ^ digits.length := ih h.2 (10 * n + digitValue c)
      _ ≤ (n + 1) * 10 * 10 ^ digits.length := Nat.mul_le_mul_right _ (by omega)
      _ = (n + 1) * 10 ^ (digits.length + 1) := by rw [Nat.mul_assoc, Nat.pow_succ']

theorem Decimal.value_lt {digits : Text} (h : ∀ c ∈ digits, c.isDigit) :
    value digits < 10 ^ digits.length := by
  simpa [value] using foldl_lt h 0

theorem Text.DigitRun.value_lt {text run : Text} (h : text.DigitRun run) :
    Decimal.value run < 10 ^ text.length := by
  obtain ⟨a, b, rfl, _, hdigits, _⟩ := h
  have hle : run.length ≤ (a ++ run ++ b).length := by
    rw [List.length_append, List.length_append]
    omega
  exact Nat.lt_of_lt_of_le (Decimal.value_lt hdigits) (Nat.pow_le_pow_right (by decide) hle)

theorem Operator.abs_apply_le (op : Operator) (a b : Int) :
    |op.apply a b| ≤ |a| + |b| := by
  cases op with
  | plus => exact abs_add_le a b
  | minus => exact abs_sub a b

theorem Amount.fits_of_abs_le {n : Int} (h : |n| ≤ greatest) : Fits n := by
  obtain ⟨hlow, hhigh⟩ := abs_le.1 h
  refine ⟨?_, hhigh⟩
  unfold greatest at hlow
  unfold least
  omega

/-! ## Runs of digits -/

namespace Token

namespace Tiling

variable {start : Nat} {text rest figures : Text} {tokens : List Token} {span : Span}
  {script : Script}

/-- Behind a numeral there is no figure that would go on with it. -/
theorem ofChar?_behind_ne (hrest : Tiling span.stop rest tokens)
    (hjoin : ∀ next ∈ tokens.head?, join? ⟨.numeral ⟨script, figures⟩, span⟩ next = none) :
    ∀ c ∈ rest.head?, Script.ofChar? c ≠ some script := by
  intro c hc hscript
  refine hrest.join?_head_eq_none_iff.1 hjoin _ rfl ?_
  rw [Option.mem_def.1 hc, Option.bind_some, hscript]

/-- A numeral in digits stands for a longest run of them. -/
theorem digitRun (h : Tiling start text tokens)
    (htoken : ⟨.numeral ⟨.digits, figures⟩, span⟩ ∈ tokens) : text.DigitRun figures := by
  induction h with
  | nil => cases htoken
  | @blank start c text tokens hc _ ih =>
    obtain ⟨a, b, rfl, hne, hdigits, ha, hb⟩ := ih htoken
    refine ⟨c :: a, b, rfl, hne, hdigits, ?_, hb⟩
    cases a with
    | nil =>
      intro d hd hdigit
      obtain rfl : c = d := by simpa using hd
      rw [isBlank_of_isDigit hdigit] at hc
      cases hc
    | cons d a => simpa only [List.getLast?_cons_cons] using ha
  | @token start run rest lexeme tokens hspells hrest hjoin ih =>
    rcases List.mem_cons.1 htoken with heq | htoken
    · cases heq
      obtain ⟨hdigits, rfl⟩ := Figures.digits_iff.1 hspells.figures
      refine ⟨[], rest, rfl, hspells.ne_nil, hdigits, by simp, ?_⟩
      intro c hc hdigit
      exact hrest.ofChar?_behind_ne hjoin c hc (Script.ofChar?_eq_digits_iff.2 hdigit)
    · obtain ⟨a, b, rfl, hne, hdigits, ha, hb⟩ := ih htoken
      refine ⟨run ++ a, b, by simp, hne, hdigits, ?_, hb⟩
      cases a with
      | nil =>
        -- two runs of digits that touch would have been one
        intro c hc hdigit
        rw [List.append_nil] at hc
        obtain ⟨_, rfl⟩ := hspells.exists_numeral (List.mem_of_getLast? hc)
          (Script.ofChar?_eq_digits_iff.2 hdigit)
        obtain ⟨d, figures, rfl⟩ := List.exists_cons_of_ne_nil hne
        have hd := Script.ofChar?_eq_digits_iff.2 (hdigits d List.mem_cons_self)
        exact hrest.ofChar?_behind_ne hjoin d rfl hd
      | cons d a => simpa only [List.getLast?_append_of_ne_nil _ (List.cons_ne_nil d a)] using ha

end Tiling

/-! ## Sums of numbers below a bound -/

/-- Tokens whose numerals are numbers up to a bound. -/
def WorthAtMost (m : Int) (tokens : List Token) : Prop :=
  ∀ numeral span, ⟨.numeral numeral, span⟩ ∈ tokens →
    ∃ number : Number, number.numeral = numeral ∧ (number.value : Int) ≤ m

section Bound

variable {m : Int} {tokens : List Token} {numeral : Numeral} {span : Span} {value k : Nat}

theorem WorthAtMost.value_le (h : WorthAtMost m tokens)
    (htoken : ⟨.numeral numeral, span⟩ ∈ tokens) (hdecode : numeral.decode = .ok value) :
    (value : Int) ≤ m := by
  obtain ⟨number, rfl, hle⟩ := h numeral span htoken
  rw [number.decode_numeral] at hdecode
  split at hdecode
  · obtain rfl := Except.ok.inj hdecode
    exact hle
  · cases hdecode

/-- A number below a bound that is an amount itself is one too. -/
theorem WorthAtMost.exists_value (h : WorthAtMost m tokens) (hm : m ≤ Amount.greatest)
    (htoken : ⟨.numeral numeral, span⟩ ∈ tokens) : ∃ value, numeral.decode = .ok value := by
  obtain ⟨number, rfl, hle⟩ := h numeral span htoken
  have hfits : Amount.Fits number.value := Amount.fits_natCast_iff.2 (hle.trans hm)
  exact ⟨number.value, by rw [number.decode_numeral, if_pos hfits]⟩

theorem abs_exactTotal_take_le {op : Operator} {opSpan : Span}
    (hop : tokens[2 * k + 1]? = some ⟨.operator op, opSpan⟩)
    (hnumeral : tokens[2 * k + 2]? = some ⟨.numeral numeral, span⟩)
    (hdecode : numeral.decode = .ok value) (hle : (value : Int) ≤ m)
    (hsum : |exactTotal (tokens.take (2 * k + 1))| ≤ (k + 1) * m) :
    |exactTotal (tokens.take (2 * k + 3))| ≤ (k + 2) * m :=
  calc
    |exactTotal (tokens.take (2 * k + 3))|
      = |op.apply (exactTotal (tokens.take (2 * k + 1))) value| := by
        rw [exactTotal_take hop hnumeral hdecode]
    _ ≤ |exactTotal (tokens.take (2 * k + 1))| + |(value : Int)| := op.abs_apply_le _ _
    _ ≤ (k + 1) * m + m := by
        rw [abs_of_nonneg (Int.natCast_nonneg value)]
        exact add_le_add hsum hle
    _ = (k + 2) * m := by
        rw [← add_one_mul, add_assoc, one_add_one_eq_two]

/-- **How far a partial sum can go**: with each number, no further than the bound. -/
theorem OrderlyBefore.abs_exactTotal_le (hworth : WorthAtMost m tokens)
    (h : OrderlyBefore tokens (2 * k + 1)) (hk : 2 * k < tokens.length) :
    |exactTotal (tokens.take (2 * k + 1))| ≤ (k + 1) * m := by
  induction k with
  | zero =>
    obtain ⟨token, rest, rfl⟩ := List.exists_cons_of_ne_nil (List.length_pos_iff.1 hk)
    obtain ⟨numeral, span, value, rfl, hdecode⟩ := h.exists_numeral (k := 0) rfl
    have hle := hworth.value_le List.mem_cons_self hdecode
    show |exactTotal [⟨.numeral numeral, span⟩]| ≤ _
    rw [exactTotal_singleton hdecode, abs_of_nonneg (Int.natCast_nonneg value)]
    simpa using hle
  | succ k ih =>
    have hget : tokens[2 * k + 2]? = some tokens[2 * k + 2] := List.getElem?_eq_getElem (by omega)
    obtain ⟨numeral, span, value, heq, hdecode⟩ := h.exists_numeral (k := k + 1) hget
    rw [heq] at hget
    obtain ⟨op, opSpan, hop, _⟩ := (h.mono (by omega)).exists_drop_eq hget
    have hle := hworth.value_le (List.mem_of_getElem? hget) hdecode
    have hsum := abs_exactTotal_take_le hop hget hdecode hle (ih (h.mono (by omega)) (by omega))
    rw [Int.natCast_succ, add_assoc, one_add_one_eq_two]
    exact hsum

/-- Where as many numbers as there can be stay within the amounts, there is no overflow. -/
theorem Violation.fault_ne_overflow {i : Nat} {rejection : Rejection}
    (h : Violation tokens i rejection) (hbefore : OrderlyBefore tokens i)
    (hworth : WorthAtMost m tokens) (hm : 0 ≤ m)
    (hcount : ((tokens.length + 1) / 2 : Nat) * m ≤ Amount.greatest) :
    rejection.fault ≠ .overflow := by
  cases h with
  | leading | doubled | operatorExpected | trailing => exact nofun
  | @valueless k numeral span fault hnumeral hdecode =>
    have hlt := (List.getElem?_eq_some_iff.1 hnumeral).1
    have hone : (1 : Int) ≤ ((tokens.length + 1) / 2 : Nat) := by omega
    have hgreatest := (le_mul_of_one_le_left hm hone).trans hcount
    obtain ⟨value, hvalue⟩ := hworth.exists_value hgreatest (List.mem_of_getElem? hnumeral)
    rw [hdecode] at hvalue
    cases hvalue
  | @overflow k value before numeral span hbehind hnumeral hdecode hfits =>
    have hlt := (List.getElem?_eq_some_iff.1 hnumeral).1
    obtain ⟨op, opSpan, rfl⟩ := hbefore.exists_operator hbehind
    have hle := hworth.value_le (List.mem_of_getElem? hnumeral) hdecode
    have hsum := (hbefore.mono (Nat.le_succ _)).abs_exactTotal_le hworth (by omega)
    have hnext := abs_exactTotal_take_le hbehind hnumeral hdecode hle hsum
    have hk : (k + 2 : Int) ≤ ((tokens.length + 1) / 2 : Nat) := by omega
    have hbound := (mul_le_mul_of_nonneg_right hk hm).trans hcount
    exact absurd (Amount.fits_of_abs_le (hnext.trans hbound)) hfits

end Bound

end Token

namespace Expression

section Magnitude

variable {limits : Limits} {text : Text} {m : Int}

theorem worthAtMost_of_tokens {ts : List Token} (h : tokens limits text = .ok ts)
    (hletters : 1000 * (limits.maxLength : Int) ≤ m)
    (hdigits : ∀ run, text.DigitRun run → (Decimal.value run : Int) ≤ m) :
    Token.WorthAtMost m ts := by
  obtain ⟨hlength, hscan, _, _⟩ := tokens_eq_ok_iff.1 h
  have htiling := Token.tiling_of_scanFrom hscan
  intro numeral span htoken
  obtain ⟨a, run, b, htext, hspells, _⟩ := htiling.exists_run _ htoken
  obtain ⟨number, rfl, hnumber⟩ := hspells.exists_number
  refine ⟨number, rfl, ?_⟩
  cases hnumber with
  | decimal nonempty digital => exact hdigits _ (htiling.digitRun htoken)
  | @roman letters nonempty hmap =>
    have hvalue := (Roman.value_bounds letters).2
    have hletters' : run.length = letters.length := by simpa using congrArg List.length hmap
    have hrun : run.length ≤ text.length := by
      rw [htext, List.length_append, List.length_append]
      omega
    show (Roman.value letters : Int) ≤ m
    omega

theorem fault_ne_overflow_of_tokens {rejection : Rejection}
    (h : tokens limits text = .error rejection) : rejection.fault ≠ .overflow := by
  obtain ⟨result, hverdict⟩ := exists_verdict limits text
  obtain rfl := (tokens_eq_of_verdict hverdict).symm.trans h
  cases hverdict <;> exact nofun

theorem total_ne_overflow (hletters : 1000 * (limits.maxLength : Int) ≤ m)
    (hcount : ((limits.maxTokens + 1) / 2 : Nat) * m ≤ Amount.greatest)
    (hdigits : ∀ run, text.DigitRun run → (Decimal.value run : Int) ≤ m)
    (span? : Option Span) : total limits text ≠ .error ⟨.overflow, span?⟩ := by
  intro h
  rcases tokens_or_total_error h with h | ⟨ts, hts, h⟩
  · exact fault_ne_overflow_of_tokens h rfl
  · obtain ⟨_, _, _, htokenCount⟩ := tokens_eq_ok_iff.1 hts
    have hm : 0 ≤ m := by omega
    have hhalf : (((ts.length + 1) / 2 : Nat) : Int) ≤ ((limits.maxTokens + 1) / 2 : Nat) := by
      omega
    have hbound := (mul_le_mul_of_nonneg_right hhalf hm).trans hcount
    obtain ⟨result, hverdict⟩ := Token.exists_verdict ts
    obtain rfl := (Token.total_eq_of_verdict hverdict).symm.trans h
    cases hverdict with
    | refused hviolation hbefore =>
      exact hviolation.fault_ne_overflow hbefore
        (worthAtMost_of_tokens hts hletters hdigits) hm hbound rfl

end Magnitude

/-- **Overflow needs large digits**: where as many numbers as the limits allow, none of them above a
bound that also covers the longest Roman numeral, add up to an amount, a text without runs of digits
above this bound has no overflow, be it in order or not. With the standard limits an overflow takes
a run of digits above 9223372036854775. -/
theorem overflow_needs_large_digits :
    (∀ (limits : Limits) (m : Int) (text : Text), 1000 * (limits.maxLength : Int) ≤ m →
      ((limits.maxTokens + 1) / 2 : Nat) * m ≤ Amount.greatest →
      (∀ run, text.DigitRun run → (Decimal.value run : Int) ≤ m) →
      ∀ span?, total limits text ≠ .error ⟨.overflow, span?⟩) ∧
    ∀ (text : Text) (span? : Option Span), total {} text = .error ⟨.overflow, span?⟩ →
      ∃ run, text.DigitRun run ∧ 9223372036854775 < Decimal.value run := by
  constructor
  · intro limits m text hletters hcount hdigits span?
    exact total_ne_overflow hletters hcount hdigits span?
  · intro text span? h
    by_cases hlarge : ∃ run, text.DigitRun run ∧ 9223372036854775 < Decimal.value run
    · exact hlarge
    · have hdigits : ∀ run, text.DigitRun run → (Decimal.value run : Int) ≤ 9223372036854775 := by
        intro run hrun
        have hle := Nat.not_lt.1 fun hlt => hlarge ⟨run, hrun, hlt⟩
        omega
      exact absurd h (total_ne_overflow (by decide) (by decide) hdigits span?)

/-- Nine digits and a few letters are far from overflow; the greatest amount and one is not. -/
theorem overflow_needs_large_digits_met :
    (∀ span?, total ⟨15, 3⟩ "999999999 - mıx".toList ≠ .error ⟨.overflow, span?⟩) ∧
      ∃ run, Text.DigitRun "9223372036854775807+1".toList run ∧
        9223372036854775 < Decimal.value run := by
  refine ⟨overflow_needs_large_digits.1 ⟨15, 3⟩ 1000000000000000 _ (by decide) (by decide) ?_,
    overflow_needs_large_digits.2 "9223372036854775807+1".toList (some ⟨19, 21⟩) rfl⟩
  intro run hrun
  have hlt : Decimal.value run < 10 ^ 15 := hrun.value_lt
  omega

end Expression

end RomanInvoice
