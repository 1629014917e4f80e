import Mathlib.Data.Nat.Find
import RomanInvoice.Token.Total

/-!
# Total — the first place where tokens go wrong

Adding up tokens stops at the first one that cannot be where it is. `Token.Violation` says place by
place what that means, without running through the tokens: numbers are due at the even places and
operators at the odd ones, a number has to have a value, and the exact sum of what stands so far has
to be an amount. `Token.total_of_first_violation` and `Token.total_of_no_violation` together decide
every total: the violation at the least place is reported, and without one the exact sum is the
answer.
-/

namespace RomanInvoice

/-- The value of a numeral, or zero if it has none. -/
def Numeral.worth (numeral : Numeral) : Int :=
  match numeral.decode with
  | .ok value => value
  | .error _ => 0

namespace Token

/-! ## The exact sum -/

/-- One step of the exact sum: an operator is kept for the next numeral, which it adds or takes
away. -/
def addToken : Operator × Int → Token → Operator × Int
  | (_, sum), ⟨.operator op, _⟩ => (op, sum)
  | (.plus, sum), ⟨.numeral numeral, _⟩ => (.plus, sum + numeral.worth)
  | (.minus, sum), ⟨.numeral numeral, _⟩ => (.minus, sum - numeral.worth)

/-- The sum of tokens from the left, in the integers. -/
def exactTotal (tokens : List Token) : Int :=
  (tokens.foldl addToken (.plus, 0)).2

/-! ## What can be wrong at a place -/

/-- `Violation tokens i rejection`: the token at place `i` is to be refused with this rejection,
if none before it is. -/
inductive Violation (tokens : List Token) : Nat → Rejection → Prop where
  | leading {op : Operator} {span : Span} : tokens[0]? = some ⟨.operator op, span⟩ →
    Violation tokens 0 (Fault.leadingOperator.inSpan span)
  | doubled {k : Nat} {op : Operator} {span : Span} :
    tokens[2 * k + 2]? = some ⟨.operator op, span⟩ →
    Violation tokens (2 * k + 2) (Fault.doubledOperator.inSpan span)
  | valueless {k : Nat} {numeral : Numeral} {span : Span} {fault : Fault} :
    tokens[2 * k]? = some ⟨.numeral numeral, span⟩ → numeral.decode = .error fault →
    Violation tokens (2 * k) (fault.inSpan span)
  | overflow {k value : Nat} {before : Token} {numeral : Numeral} {span : Span} :
    tokens[2 * k + 1]? = some before → tokens[2 * k + 2]? = some ⟨.numeral numeral, span⟩ →
    numeral.decode = .ok value → ¬ Amount.Fits (exactTotal (tokens.take (2 * k + 3))) →
    Violation tokens (2 * k + 2) (Fault.overflow.inSpan (before.span.through span))
  | operatorExpected {k : Nat} {numeral : Numeral} {span : Span} :
    tokens[2 * k + 1]? = some ⟨.numeral numeral, span⟩ →
    Violation tokens (2 * k + 1) ((Fault.operatorExpected numeral.text).inSpan span)
  | trailing {k : Nat} {op : Operator} {span : Span} :
    tokens[2 * k + 1]? = some ⟨.operator op, span⟩ → tokens.length = 2 * k + 2 →
    Violation tokens (2 * k + 1) (Fault.trailingOperator.inSpan span)

/-- Whether the tokens before a place are all in order. -/
def OrderlyBefore (tokens : List Token) (i : Nat) : Prop :=
  ∀ j < i, ∀ rejection, ¬ Violation tokens j rejection

/-! ## One step of the total -/

section Step

variable {sum : Int} {numeral : Numeral} {span opSpan : Span} {op : Operator} {value : Nat}
  {fault : Fault} {rest : List Token}

theorem decodeIn_of_ok (h : numeral.decode = .ok value) : numeral.decodeIn span = .ok value := by
  rw [Numeral.decodeIn, h]
  rfl

theorem decodeIn_of_error (h : numeral.decode = .error fault) :
    numeral.decodeIn span = .error (fault.inSpan span) := by
  rw [Numeral.decodeIn, h]
  rfl

theorem totalFrom_of_error (h : numeral.decode = .error fault) :
    totalFrom sum (⟨.operator op, opSpan⟩ :: ⟨.numeral numeral, span⟩ :: rest) =
      .error (fault.inSpan span) := by
  rw [totalFrom, decodeIn_of_error h]
  rfl

theorem totalFrom_of_overflow (h : numeral.decode = .ok value)
    (hfits : ¬ Amount.Fits (op.apply sum value)) :
    totalFrom sum (⟨.operator op, opSpan⟩ :: ⟨.numeral numeral, span⟩ :: rest) =
      .error (Fault.overflow.inSpan (opSpan.through span)) := by
  rw [totalFrom, decodeIn_of_ok h]
  exact if_neg hfits

theorem totalFrom_of_fits (h : numeral.decode = .ok value)
    (hfits : Amount.Fits (op.apply sum value)) :
    totalFrom sum (⟨.operator op, opSpan⟩ :: ⟨.numeral numeral, span⟩ :: rest) =
      totalFrom (op.apply sum value) rest := by
  rw [totalFrom, decodeIn_of_ok h]
  exact if_pos hfits

theorem total_of_error (h : numeral.decode = .error fault) :
    total (⟨.numeral numeral, span⟩ :: rest) = .error (fault.inSpan span) := by
  rw [total, decodeIn_of_error h]
  rfl

theorem total_of_ok (h : numeral.decode = .ok value) :
    total (⟨.numeral numeral, span⟩ :: rest) = totalFrom value rest := by
  rw [total, decodeIn_of_ok h]
  rfl

theorem addToken_operator (before : Operator × Int) :
    addToken before ⟨.operator op, opSpan⟩ = (op, before.2) := rfl

theorem addToken_numeral :
    addToken (op, sum) ⟨.numeral numeral, span⟩ = (op, op.apply sum numeral.worth) := by
  cases op <;> rfl

/-- The exact sum up to the first numeral is its value. -/
theorem exactTotal_singleton (h : numeral.decode = .ok value) :
    exactTotal [⟨.numeral numeral, span⟩] = value := by
  simp [exactTotal, addToken, Numeral.worth, h]

/-- An operator and a numeral carry the exact sum on. -/
theorem exactTotal_append_pair {tokens : List Token} (h : numeral.decode = .ok value) :
    exactTotal (tokens ++ [⟨.operator op, opSpan⟩, ⟨.numeral numeral, span⟩]) =
      op.apply (exactTotal tokens) value := by
  simp [exactTotal, List.foldl_append, addToken_operator, addToken_numeral, Numeral.worth, h]

end Step

/-! ## The total without spans -/

section Congruence

variable {tokens others : List Token} {sum t : Int}

theorem totalFrom_congr (h : tokens.map lexeme = others.map lexeme) :
    (totalFrom sum tokens).mapError Rejection.fault =
      (totalFrom sum others).mapError Rejection.fault := by
  induction sum, tokens using totalFrom.induct generalizing others with
  | case1 sum =>
    obtain rfl : others = [] := by simpa using h.symm
    rfl
  | case2 sum numeral span tokens =>
    obtain ⟨⟨_, span'⟩, others, rfl, hlexeme, _⟩ := List.map_eq_cons_iff.1 h.symm
    cases hlexeme
    rfl
  | case3 sum op span =>
    obtain ⟨⟨_, span'⟩, others, rfl, hlexeme, hrest⟩ := List.map_eq_cons_iff.1 h.symm
    obtain rfl : others = [] := by simpa using hrest
    cases hlexeme
    rfl
  | case4 sum op opSpan op' span tokens =>
    obtain ⟨⟨_, opSpan'⟩, behind, rfl, hop, hbehind⟩ := List.map_eq_cons_iff.1 h.symm
    obtain ⟨⟨_, span'⟩, others, rfl, hop', _⟩ := List.map_eq_cons_iff.1 hbehind
    cases hop
    cases hop'
    rfl
  | case5 sum op opSpan numeral span tokens ih =>
    obtain ⟨⟨_, opSpan'⟩, behind, rfl, hop, hbehind⟩ := List.map_eq_cons_iff.1 h.symm
    obtain ⟨⟨_, span'⟩, others, rfl, hnumeral, hrest⟩ := List.map_eq_cons_iff.1 hbehind
    cases hop
    cases hnumeral
    cases hdecode : numeral.decode with
    | error fault =>
      rw [totalFrom_of_error hdecode, totalFrom_of_error hdecode]
      rfl
    | ok value =>
      by_cases hfits : Amount.Fits (op.apply sum value)
      · rw [totalFrom_of_fits hdecode hfits, totalFrom_of_fits hdecode hfits]
        exact ih value hrest.symm
      · rw [totalFrom_of_overflow hdecode hfits, totalFrom_of_overflow hdecode hfits]
        rfl

/-- Spans only say where a fault is: tokens of the same lexemes have the same total or fault. -/
theorem total_congr (h : tokens.map lexeme = others.map lexeme) :
    (total tokens).mapError Rejection.fault = (total others).mapError Rejection.fault := by
  match tokens with
  | [] =>
    obtain rfl : others = [] := by simpa using h.symm
    rfl
  | ⟨.operator op, span⟩ :: tokens =>
    obtain ⟨⟨_, span'⟩, others, rfl, hlexeme, _⟩ := List.map_eq_cons_iff.1 h.symm
    cases hlexeme
    rfl
  | ⟨.numeral numeral, span⟩ :: tokens =>
    obtain ⟨⟨_, span'⟩, others, rfl, hlexeme, hrest⟩ := List.map_eq_cons_iff.1 h.symm
    cases hlexeme
    cases hdecode : numeral.decode with
    | error fault =>
      rw [total_of_error hdecode, total_of_error hdecode]
      rfl
    | ok value =>
      rw [total_of_ok hdecode, total_of_ok hdecode]
      exact totalFrom_congr hrest.symm

theorem total_eq_ok_congr (h : tokens.map lexeme = others.map lexeme) (ht : total tokens = .ok t) :
    total others = .ok t := by
  have hcongr := total_congr h
  rw [ht] at hcongr
  cases hothers : total others with
  | error rejection =>
    rw [hothers] at hcongr
    cases hcongr
  | ok t' =>
    rw [hothers] at hcongr
    cases hcongr
    rfl

end Congruence

/-! ## Tokens in order -/

section Order

variable {tokens : List Token} {i k : Nat}

theorem drop_eq_cons {token : Token} (h : tokens[i]? = some token) :
    tokens.drop i = token :: tokens.drop (i + 1) := by
  obtain ⟨hi, rfl⟩ := List.getElem?_eq_some_iff.1 h
  exact List.drop_eq_getElem_cons hi

theorem OrderlyBefore.mono {j : Nat} (h : OrderlyBefore tokens i) (hj : j ≤ i) :
    OrderlyBefore tokens j :=
  fun place hplace => h place (Nat.lt_of_lt_of_le hplace hj)

/-- At an even place in order there is a number with a value. -/
theorem OrderlyBefore.exists_numeral (h : OrderlyBefore tokens (2 * k + 1)) {token : Token}
    (htoken : tokens[2 * k]? = some token) :
    ∃ numeral span value, token = ⟨.numeral numeral, span⟩ ∧ numeral.decode = .ok value := by
  obtain ⟨lexeme, span⟩ := token
  cases lexeme with
  | operator op =>
    cases k with
    | zero => exact absurd (.leading htoken) (h 0 (by omega) _)
    | succ k => exact absurd (.doubled htoken) (h (2 * k + 2) (by omega) _)
  | numeral numeral =>
    cases hdecode : numeral.decode with
    | error fault => exact absurd (.valueless htoken hdecode) (h (2 * k) (by omega) _)
    | ok value => exact ⟨numeral, span, value, rfl, hdecode⟩

/-- At an odd place in order there is an operator. -/
theorem OrderlyBefore.exists_operator (h : OrderlyBefore tokens (2 * k + 2)) {token : Token}
    (htoken : tokens[2 * k + 1]? = some token) :
    ∃ op span, token = ⟨.operator op, span⟩ := by
  obtain ⟨lexeme, span⟩ := token
  cases lexeme with
  | operator op => exact ⟨op, span, rfl⟩
  | numeral numeral => exact absurd (.operatorExpected htoken) (h (2 * k + 1) (by omega) _)

/-- What the total has before it at an odd place: an operator and whatever comes next. -/
theorem OrderlyBefore.exists_drop_eq (h : OrderlyBefore tokens (2 * k + 2)) {next : Token}
    (hnext : tokens[2 * k + 2]? = some next) :
    ∃ op opSpan, tokens[2 * k + 1]? = some ⟨.operator op, opSpan⟩ ∧
      tokens.drop (2 * k + 1) = ⟨.operator op, opSpan⟩ :: next :: tokens.drop (2 * k + 3) := by
  obtain ⟨hlt, _⟩ := List.getElem?_eq_some_iff.1 hnext
  have hget : tokens[2 * k + 1]? = some tokens[2 * k + 1] := List.getElem?_eq_getElem (by omega)
  obtain ⟨op, opSpan, heq⟩ := h.exists_operator hget
  rw [heq] at hget
  exact ⟨op, opSpan, hget, by rw [drop_eq_cons hget, drop_eq_cons hnext]⟩

theorem exactTotal_take {op : Operator} {opSpan span : Span} {numeral : Numeral} {value : Nat}
    (hop : tokens[2 * k + 1]? = some ⟨.operator op, opSpan⟩)
    (hnumeral : tokens[2 * k + 2]? = some ⟨.numeral numeral, span⟩)
    (hdecode : numeral.decode = .ok value) :
    exactTotal (tokens.take (2 * k + 3)) =
      op.apply (exactTotal (tokens.take (2 * k + 1))) value := by
  have htake : tokens.take (2 * k + 3) =
      tokens.take (2 * k + 1) ++ [⟨.operator op, opSpan⟩, ⟨.numeral numeral, span⟩] := by
    rw [List.take_add_one, List.take_add_one, hop, hnumeral]
    simp
  rw [htake, exactTotal_append_pair hdecode]

/-- **The invariant of the total**: where the tokens up to a number are in order, the total goes on
behind that number with the exact sum of what stands up to there. -/
theorem OrderlyBefore.total_eq (h : OrderlyBefore tokens (2 * k + 1))
    (hk : 2 * k < tokens.length) :
    total tokens =
      totalFrom (exactTotal (tokens.take (2 * k + 1))) (tokens.drop (2 * k + 1)) := by
  induction k with
  | zero =>
    cases tokens with
    | nil => exact absurd hk (Nat.lt_irrefl 0)
    | cons token rest =>
      obtain ⟨numeral, span, value, rfl, hdecode⟩ := h.exists_numeral (k := 0) rfl
      rw [total_of_ok hdecode]
      show _ = totalFrom (exactTotal [⟨.numeral numeral, span⟩]) rest
      rw [exactTotal_singleton hdecode]
  | succ k ih =>
    have hget : tokens[2 * k + 2]? = some tokens[2 * k + 2] := List.getElem?_eq_getElem (by omega)
    obtain ⟨numeral, span, value, heq, hdecode⟩ := h.exists_numeral (k := k + 1) hget
    rw [heq] at hget
    obtain ⟨op, opSpan, hop, hdrop⟩ := (h.mono (by omega)).exists_drop_eq hget
    have hexact := exactTotal_take hop hget hdecode
    -- the step goes over one operator and one number, which adds up to an amount again
    rw [ih (h.mono (by omega)) (by omega), hdrop]
    by_cases hfits : Amount.Fits (exactTotal (tokens.take (2 * k + 3)))
    · rw [hexact] at hfits
      rw [totalFrom_of_fits hdecode hfits, ← hexact]
      rfl
    · exact absurd (.overflow hop hget hdecode hfits) (h (2 * k + 2) (by omega) _)

end Order

/-! ## The first violation -/

/-- What adding up tokens comes to. -/
inductive Verdict (tokens : List Token) : Except Rejection Int → Prop where
  | empty : tokens = [] → Verdict tokens (.error Fault.empty.anywhere)
  | refused {i : Nat} {rejection : Rejection} : Violation tokens i rejection →
    OrderlyBefore tokens i → Verdict tokens (.error rejection)
  | sound : tokens ≠ [] → (∀ i, OrderlyBefore tokens i) → Verdict tokens (.ok (exactTotal tokens))

section Verdict

variable {tokens : List Token}

/-- The violation with nothing wrong before it is the one that the total reports. -/
theorem total_of_first_violation {i : Nat} {rejection : Rejection}
    (h : Violation tokens i rejection) (hbefore : OrderlyBefore tokens i) :
    total tokens = .error rejection := by
  cases h with
  | leading hop =>
    rw [← List.drop_zero (l := tokens), drop_eq_cons hop]
    rfl
  | @doubled k op span hop =>
    have hlt := (List.getElem?_eq_some_iff.1 hop).1
    obtain ⟨op', opSpan, _, hdrop⟩ := hbefore.exists_drop_eq hop
    have hnumber : OrderlyBefore tokens (2 * k + 1) := hbefore.mono (by omega)
    rw [hnumber.total_eq (by omega), hdrop]
    rfl
  | @valueless k numeral span fault hnumeral hdecode =>
    -- `total` values the first number itself and leaves the others to `totalFrom`
    cases k with
    | zero =>
      rw [← List.drop_zero (l := tokens), drop_eq_cons hnumeral]
      exact total_of_error hdecode
    | succ k =>
      have hlt := (List.getElem?_eq_some_iff.1 hnumeral).1
      obtain ⟨op, opSpan, _, hdrop⟩ := OrderlyBefore.exists_drop_eq (k := k) hbefore hnumeral
      have hnumber : OrderlyBefore tokens (2 * k + 1) := hbefore.mono (by omega)
      rw [hnumber.total_eq (by omega), hdrop]
      exact totalFrom_of_error hdecode
  | @overflow k value before numeral span hbehind hnumeral hdecode hfits =>
    have hlt := (List.getElem?_eq_some_iff.1 hnumeral).1
    obtain ⟨op, opSpan, hop, hdrop⟩ := hbefore.exists_drop_eq hnumeral
    rw [hop] at hbehind
    cases hbehind
    rw [exactTotal_take hop hnumeral hdecode] at hfits
    have hnumber : OrderlyBefore tokens (2 * k + 1) := hbefore.mono (by omega)
    rw [hnumber.total_eq (by omega), hdrop]
    exact totalFrom_of_overflow hdecode hfits
  | @operatorExpected k numeral span hnumeral =>
    have hlt := (List.getElem?_eq_some_iff.1 hnumeral).1
    rw [hbefore.total_eq (by omega), drop_eq_cons hnumeral]
    rfl
  | @trailing k op span hop hlength =>
    rw [hbefore.total_eq (by omega), drop_eq_cons hop, List.drop_eq_nil_of_le (by omega)]
    rfl

/-- Tokens in order have a number at the end, and their total is the exact sum. -/
theorem total_of_no_violation (hne : tokens ≠ []) (h : ∀ i, OrderlyBefore tokens i) :
    total tokens = .ok (exactTotal tokens) := by
  have hpos := List.length_pos_iff.2 hne
  obtain ⟨k, hk | hk⟩ : ∃ k, tokens.length = 2 * k + 1 ∨ tokens.length = 2 * k + 2 :=
    ⟨(tokens.length - 1) / 2, by omega⟩
  · rw [(h (2 * k + 1)).total_eq (by omega), List.take_of_length_le (by omega),
      List.drop_eq_nil_of_le (by omega)]
    rfl
  · -- an operator at an odd place, where it has to be one, cannot be the last token
    have hlast : tokens[2 * k + 1]? = some tokens[2 * k + 1] :=
      List.getElem?_eq_getElem (by omega)
    obtain ⟨op, span, heq⟩ := (h (2 * k + 2)).exists_operator hlast
    rw [heq] at hlast
    exact absurd (.trailing hlast (by omega)) (h (2 * k + 2) (2 * k + 1) (by omega) _)

theorem total_eq_of_verdict {result : Except Rejection Int} (h : Verdict tokens result) :
    total tokens = result := by
  cases h with
  | empty hempty =>
    subst hempty
    rfl
  | refused hviolation hbefore => exact total_of_first_violation hviolation hbefore
  | sound hne h => exact total_of_no_violation hne h

/-- There is a verdict on all tokens, for a violation anywhere gives a first one. -/
theorem exists_verdict (tokens : List Token) : ∃ result, Verdict tokens result := by
  by_cases hne : tokens = []
  · exact ⟨_, .empty hne⟩
  by_cases hviolation : ∃ i rejection, Violation tokens i rejection
  · classical
    -- at the least place there is a violation, and before it there is none
    obtain ⟨rejection, hfirst⟩ := Nat.find_spec hviolation
    refine ⟨_, .refused hfirst ?_⟩
    intro j hj other hother
    exact Nat.find_min hviolation hj ⟨other, hother⟩
  · refine ⟨_, .sound hne ?_⟩
    intro i j _ rejection h
    exact hviolation ⟨j, rejection, h⟩

/-- **The first violation decides**: a total is refused for the first token that is out of place,
without value or too much, and is the exact sum if there is no such token. -/
theorem total_eq_iff_verdict (tokens : List Token) :
    (∀ result, total tokens = result ↔ Verdict tokens result) ∧
      total tokens ≠ .error Fault.trailingOperator.anywhere := by
  have hiff (result : Except Rejection Int) : total tokens = result ↔ Verdict tokens result := by
    refine ⟨?_, total_eq_of_verdict⟩
    intro h
    obtain ⟨result', hverdict⟩ := exists_verdict tokens
    rw [← h, total_eq_of_verdict hverdict]
    exact hverdict
  refine ⟨hiff, ?_⟩
  intro h
  have hverdict := (hiff _).1 h
  generalize hrejection : Fault.trailingOperator.anywhere = rejection at hverdict
  cases hverdict with
  | empty => cases hrejection
  | refused hviolation => cases hviolation <;> cases hrejection

end Verdict

end Token

end RomanInvoice
