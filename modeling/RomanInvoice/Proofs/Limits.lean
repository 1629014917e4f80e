import RomanInvoice.Expression
import RomanInvoice.Proofs.Tiling

/-!
# Limits — which check refuses an expression

Reading an expression can fail in four ways, and a text may be open to several of them at once.
`Expression.Verdict` lists the outcomes with the order of precedence written into their conditions:
the number of characters comes before everything, an illegal character before the count of tokens,
and that count is the one of the whole text. The tokens themselves never depend on the limits.
-/

namespace RomanInvoice.Expression

/-- The tokens of a text when no limit is in its way. -/
def Unlimited (text : Text) (ts : List Token) : Prop :=
  ∀ wide : Limits, text.length ≤ wide.maxLength → text.length ≤ wide.maxTokens →
    tokens wide text = .ok ts

/-- What reading a text within limits comes to. -/
inductive Verdict (limits : Limits) (text : Text) : Except Rejection (List Token) → Prop where
  | tooLong : limits.maxLength < text.length →
    Verdict limits text (.error (Fault.tooLong text.length limits.maxLength).anywhere)
  | illegal {a b : Text} {c : Char} : text.length ≤ limits.maxLength →
    text = a ++ c :: b → (∀ d ∈ a, Legal d) → ¬ Legal c →
    Verdict limits text
      (.error ((Fault.illegalChar c).inSpan ⟨a.byteSize, a.byteSize + c.utf8Size⟩))
  | empty : text.length ≤ limits.maxLength → (∀ c ∈ text, isBlank c) →
    Verdict limits text (.error (Fault.empty.inSpan ⟨0, text.byteSize⟩))
  | tooMany {ts : List Token} : text.length ≤ limits.maxLength → Unlimited text ts →
    (h : limits.maxTokens < ts.length) →
    Verdict limits text
      (.error ((Fault.tooManyTokens ts.length limits.maxTokens).inSpan
        ⟨ts[limits.maxTokens].span.start, text.byteSize⟩))
  | accepted {ts : List Token} : text.length ≤ limits.maxLength → Unlimited text ts →
    ts.length ≤ limits.maxTokens → Verdict limits text (.ok ts)

/-! ## The checks one by one -/

section Checks

variable {limits : Limits} {text : Text} {ts : List Token}

theorem tokens_of_tooLong (h : limits.maxLength < text.length) :
    tokens limits text = .error (Fault.tooLong text.length limits.maxLength).anywhere :=
  if_pos h

theorem tokens_of_scan_error {rejection : Rejection} (hlength : text.length ≤ limits.maxLength)
    (hscan : Token.scan text = .error rejection) : tokens limits text = .error rejection := by
  rw [tokens, if_neg (Nat.not_lt.2 hlength), hscan]
  rfl

theorem tokens_of_scan_nil (hlength : text.length ≤ limits.maxLength)
    (hscan : Token.scan text = .ok []) :
    tokens limits text = .error (Fault.empty.inSpan ⟨0, text.byteSize⟩) := by
  rw [tokens, if_neg (Nat.not_lt.2 hlength), hscan]
  rfl

theorem tokens_of_excess (hlength : text.length ≤ limits.maxLength)
    (hscan : Token.scan text = .ok ts) (hcount : limits.maxTokens < ts.length) :
    tokens limits text =
      .error ((Fault.tooManyTokens ts.length limits.maxTokens).inSpan
        ⟨ts[limits.maxTokens].span.start, text.byteSize⟩) := by
  have hne : ts ≠ [] := List.length_pos_iff.1 (Nat.zero_lt_of_lt hcount)
  rw [tokens, if_neg (Nat.not_lt.2 hlength), hscan]
  show (if ts = [] then _ else _) = _
  rw [if_neg hne, List.drop_eq_getElem_cons hcount]
  rfl

theorem tokens_of_scan_ok (hlength : text.length ≤ limits.maxLength)
    (hscan : Token.scan text = .ok ts) (hne : ts ≠ []) (hcount : ts.length ≤ limits.maxTokens) :
    tokens limits text = .ok ts := by
  rw [tokens, if_neg (Nat.not_lt.2 hlength), hscan]
  show (if ts = [] then _ else _) = _
  rw [if_neg hne, List.drop_eq_nil_of_le hcount]

/-- Reading succeeds with the scanned tokens, where there are some and no limit is exceeded. -/
theorem tokens_eq_ok_iff :
    tokens limits text = .ok ts ↔
      text.length ≤ limits.maxLength ∧ Token.scan text = .ok ts ∧ ts ≠ [] ∧
        ts.length ≤ limits.maxTokens := by
  constructor
  · intro h
    by_cases hlength : limits.maxLength < text.length
    · rw [tokens_of_tooLong hlength] at h
      cases h
    have hlength := Nat.not_lt.1 hlength
    cases hscan : Token.scan text with
    | error rejection =>
      rw [tokens_of_scan_error hlength hscan] at h
      cases h
    | ok us =>
      by_cases hne : us = []
      · subst hne
        rw [tokens_of_scan_nil hlength hscan] at h
        cases h
      by_cases hcount : limits.maxTokens < us.length
      · rw [tokens_of_excess hlength hscan hcount] at h
        cases h
      have hcount := Nat.not_lt.1 hcount
      rw [tokens_of_scan_ok hlength hscan hne hcount] at h
      cases h
      exact ⟨hlength, rfl, hne, hcount⟩
  · intro h
    exact tokens_of_scan_ok h.1 h.2.1 h.2.2.1 h.2.2.2

/-- Without a limit a text is refused only for what it holds. -/
theorem unlimited_iff : Unlimited text ts ↔ Token.scan text = .ok ts ∧ ts ≠ [] := by
  constructor
  · intro h
    have hwide := h ⟨text.length, text.length⟩ (Nat.le_refl _) (Nat.le_refl _)
    obtain ⟨_, hscan, hne, _⟩ := tokens_eq_ok_iff.1 hwide
    exact ⟨hscan, hne⟩
  · intro h wide hlength hcount
    have htiling : Token.Tiling 0 text ts := Token.scanFrom_eq_ok_iff.1 h.1
    exact tokens_of_scan_ok hlength h.1 h.2 (Nat.le_trans htiling.length_le hcount)

end Checks

/-! ## The checks together -/

section Verdict

variable {limits : Limits} {text : Text}

theorem tokens_eq_of_verdict {result : Except Rejection (List Token)}
    (h : Verdict limits text result) : tokens limits text = result := by
  cases h with
  | tooLong hlength => exact tokens_of_tooLong hlength
  | @illegal a b c hlength htext ha hc =>
    refine tokens_of_scan_error hlength (Token.scanFrom_eq_error_iff.2 ⟨a, c, b, htext, ha, hc, ?_⟩)
    rw [Nat.zero_add]
  | empty hlength hblank =>
    exact tokens_of_scan_nil hlength (Token.scanFrom_of_tiling (Token.Tiling.nil_iff.2 hblank))
  | tooMany hlength hts hcount =>
    exact tokens_of_excess hlength (unlimited_iff.1 hts).1 hcount
  | accepted hlength hts hcount =>
    obtain ⟨hscan, hne⟩ := unlimited_iff.1 hts
    exact tokens_of_scan_ok hlength hscan hne hcount

theorem exists_verdict (limits : Limits) (text : Text) : ∃ result, Verdict limits text result := by
  by_cases hlength : limits.maxLength < text.length
  · exact ⟨_, .tooLong hlength⟩
  have hlength := Nat.not_lt.1 hlength
  cases hscan : Token.scan text with
  | error rejection =>
    obtain ⟨a, c, b, htext, ha, hc, _⟩ := Token.scanFrom_eq_error_iff.1 hscan
    exact ⟨_, .illegal hlength htext ha hc⟩
  | ok ts =>
    by_cases hne : ts = []
    · subst hne
      exact ⟨_, .empty hlength (Token.Tiling.nil_iff.1 (Token.tiling_of_scanFrom hscan))⟩
    have hts : Unlimited text ts := unlimited_iff.2 ⟨hscan, hne⟩
    by_cases hcount : limits.maxTokens < ts.length
    · exact ⟨_, .tooMany hlength hts hcount⟩
    · exact ⟨_, .accepted hlength hts (Nat.not_lt.1 hcount)⟩

/-- What was read within limits is read within wider ones. -/
theorem tokens_mono {wider : Limits} {ts : List Token}
    (hlength : limits.maxLength ≤ wider.maxLength) (hcount : limits.maxTokens ≤ wider.maxTokens)
    (h : tokens limits text = .ok ts) : tokens wider text = .ok ts := by
  obtain ⟨hl, hscan, hne, hc⟩ := tokens_eq_ok_iff.1 h
  exact tokens_of_scan_ok (Nat.le_trans hl hlength) hscan hne (Nat.le_trans hc hcount)

theorem total_of_tokens {ts : List Token} (h : tokens limits text = .ok ts) :
    total limits text = Token.total ts := by
  rw [total, h]
  rfl

theorem total_of_tokens_error {rejection : Rejection} (h : tokens limits text = .error rejection) :
    total limits text = .error rejection := by
  rw [total, h]
  rfl

theorem total_eq_ok_iff_tokens {t : Int} :
    total limits text = .ok t ↔ ∃ ts, tokens limits text = .ok ts ∧ Token.total ts = .ok t := by
  unfold total
  cases tokens limits text with
  | error rejection => simp [bind, Except.bind]
  | ok ts => simp [bind, Except.bind]

/-- A total fails while the text is read, or while the tokens that were read are added up. -/
theorem tokens_or_total_error {rejection : Rejection}
    (h : total limits text = .error rejection) :
    tokens limits text = .error rejection ∨
      ∃ ts, tokens limits text = .ok ts ∧ Token.total ts = .error rejection := by
  cases htokens : tokens limits text with
  | error other =>
    rw [total_of_tokens_error htokens] at h
    cases h
    exact .inl rfl
  | ok ts =>
    rw [total_of_tokens htokens] at h
    exact .inr ⟨ts, rfl, h⟩

/-- **Limits only gate**: reading comes to exactly one verdict, whose conditions fix which check
wins, and an expression that is accepted within limits has the same tokens and the same total within
all wider ones. -/
theorem limits_gate (limits : Limits) (text : Text) :
    (∀ result, tokens limits text = result ↔ Verdict limits text result) ∧
    ∀ wider : Limits, limits.maxLength ≤ wider.maxLength → limits.maxTokens ≤ wider.maxTokens →
      (∀ ts, tokens limits text = .ok ts → tokens wider text = .ok ts) ∧
      (∀ t, total limits text = .ok t → total wider text = .ok t) := by
  refine ⟨fun result => ⟨?_, tokens_eq_of_verdict⟩, ?_⟩
  · intro h
    -- a verdict fixes the result, so the one there is must be the one on this result
    obtain ⟨result', hverdict⟩ := exists_verdict limits text
    rw [← h, tokens_eq_of_verdict hverdict]
    exact hverdict
  · intro wider hlength hcount
    refine ⟨fun ts h => tokens_mono hlength hcount h, ?_⟩
    intro t h
    obtain ⟨ts, hts, ht⟩ := total_eq_ok_iff_tokens.1 h
    exact total_eq_ok_iff_tokens.2 ⟨ts, tokens_mono hlength hcount hts, ht⟩

/-- Three tokens in five characters just pass, and pass with the same total when there is room. -/
theorem limits_gate_at_bounds :
    tokens ⟨5, 3⟩ "i - x".toList =
        .ok [⟨.numeral ⟨.roman, ['I']⟩, ⟨0, 1⟩⟩, ⟨.operator .minus, ⟨2, 3⟩⟩,
          ⟨.numeral ⟨.roman, ['X']⟩, ⟨4, 5⟩⟩] ∧
      total ⟨5, 3⟩ "i - x".toList = .ok (-9) ∧ total ⟨6, 3⟩ "i - x".toList = .ok (-9) ∧
      Verdict ⟨5, 2⟩ "i - x".toList
        (.error ((Fault.tooManyTokens 3 2).inSpan ⟨4, 5⟩)) :=
  ⟨rfl, rfl, ((limits_gate ⟨5, 3⟩ "i - x".toList).2 ⟨6, 3⟩ (by decide) (by decide)).2 (-9) rfl,
    ((limits_gate ⟨5, 2⟩ "i - x".toList).1 _).1 rfl⟩

end Verdict

end RomanInvoice.Expression
