import RomanInvoice.Proofs.Magnitude
import RomanInvoice.Proofs.NormalForm

/-!
# Stages — which step of the work a fault comes from

An expression is taken from bytes to a text, from a text to tokens and from tokens to a total, and
every fault belongs to one of these stages (`Fault.stage?`); only a wrong Roman letter belongs to
none, for numerals are looked over before their letters are counted. The scanner and the reader of
numerals sort characters by different means, but they agree: a numeral of a text is a run of its
script, so its one possible fault is that it is too great.
-/

namespace RomanInvoice

/-- A step on the way to a total. -/
inductive Stage where
  | decoding
  | reading
  | adding
  deriving DecidableEq, Repr

/-- The stage in which a fault arises, if there is one. -/
def Fault.stage? : Fault → Option Stage
  | notText => some .decoding
  | tooLong _ _ | illegalChar _ | empty | tooManyTokens _ _ => some .reading
  | badNumeral _ | leadingOperator | operatorExpected _ | trailingOperator | doubledOperator
  | overflow => some .adding
  | badRomanLetter _ => none

/-! ## Numerals -/

namespace Numeral

variable {numeral : Numeral} {fault : Fault}

/-- What the figures of a numeral count for in its script; there is no bound to it. -/
def denoted (numeral : Numeral) : Nat :=
  match numeral.script with
  | .digits => Decimal.value numeral.text
  | .roman => Roman.value (Roman.leading numeral.text)

/-- A numeral has two faults: what is written is no number, or its letters are too many. -/
theorem fault_of_decode_error (h : numeral.decode = .error fault) :
    fault = .badNumeral numeral.text ∨ fault = .overflow := by
  unfold decode at h
  split at h
  · exact .inl (Except.error.inj h).symm
  split at h
  · split at h
    · cases h
    · exact .inl (Except.error.inj h).symm
  split at h
  · next hcapital =>
    -- all letters are known by now, so the reader of letters comes to the end of them
    obtain ⟨letters, hletters⟩ := Roman.exists_letters_of_forall (List.all_eq_true.1 hcapital)
    rw [hletters, Roman.decode_map_toChar] at h
    split at h
    · cases h
    · exact .inr (Except.error.inj h).symm
  · exact .inl (Except.error.inj h).symm

theorem stage?_of_decode_error (h : numeral.decode = .error fault) :
    fault.stage? = some .adding := by
  rcases fault_of_decode_error h with rfl | rfl <;> rfl

theorem denoted_number (number : Number) : number.numeral.denoted = number.value := by
  cases number with
  | decimal digits nonempty digital => rfl
  | roman letters nonempty =>
    show Roman.value (Roman.leading (letters.map Roman.Letter.toChar)) = Roman.value letters
    rw [Roman.leading_map_toChar]

/-- A numeral that is a run of its script is at fault only for what it counts for. -/
theorem decode_eq_error_iff_of_proper (h : (Lexeme.numeral numeral).Proper) :
    (∃ fault, numeral.decode = .error fault) ↔ Amount.greatest < numeral.denoted := by
  obtain ⟨number, rfl, _⟩ := h.spells.exists_number
  rw [denoted_number, number.decode_numeral, ← Int.not_le, ← Amount.fits_natCast_iff]
  by_cases hfits : Amount.Fits number.value
  · simp [hfits]
  · simp [hfits]

/-- Where a number of an expression is no number to the reader, its digits denote too much. -/
theorem digits_of_decode_eq_badNumeral {figures : Text} (h : (Lexeme.numeral numeral).Proper)
    (hdecode : numeral.decode = .error (.badNumeral figures)) :
    numeral = ⟨.digits, figures⟩ ∧ Amount.greatest < Decimal.value figures := by
  have hgreatest := (decode_eq_error_iff_of_proper h).1 ⟨_, hdecode⟩
  obtain ⟨number, rfl, _⟩ := h.spells.exists_number
  rw [number.decode_numeral] at hdecode
  split at hdecode
  · cases hdecode
  · cases number with
    | decimal digits nonempty digital =>
      cases hdecode
      exact ⟨rfl, hgreatest⟩
    | roman letters nonempty => cases hdecode

end Numeral

/-! ## The stages one by one -/

namespace Token

variable {tokens : List Token} {rejection : Rejection}

theorem Violation.stage? {i : Nat} (h : Violation tokens i rejection) :
    rejection.fault.stage? = some .adding := by
  cases h with
  | leading | doubled | overflow | operatorExpected | trailing => rfl
  | valueless _ hdecode => exact Numeral.stage?_of_decode_error hdecode

/-- Whatever the tokens are, also such as no text has, their faults are those of adding up; with
no tokens at all there is nothing to add up. -/
theorem stage?_of_total_error (h : total tokens = .error rejection) :
    tokens = [] ∧ rejection = Fault.empty.anywhere ∨ rejection.fault.stage? = some .adding := by
  obtain ⟨result, hverdict⟩ := exists_verdict tokens
  obtain rfl := (total_eq_of_verdict hverdict).symm.trans h
  cases hverdict with
  | empty hempty => exact .inl ⟨hempty, rfl⟩
  | refused hviolation _ => exact .inr hviolation.stage?

/-- A numeral that is said to be no number is one of the tokens. -/
theorem exists_numeral_of_badNumeral {figures : Text} (h : total tokens = .error rejection)
    (hfault : rejection.fault = .badNumeral figures) :
    ∃ numeral span, ⟨.numeral numeral, span⟩ ∈ tokens ∧
      numeral.decode = .error (.badNumeral figures) := by
  obtain ⟨result, hverdict⟩ := exists_verdict tokens
  obtain rfl := (total_eq_of_verdict hverdict).symm.trans h
  cases hverdict with
  | empty _ => cases hfault
  | refused hviolation _ =>
    cases hviolation with
    | leading | doubled | overflow | operatorExpected | trailing => cases hfault
    | @valueless k numeral span fault hnumeral hdecode =>
      obtain rfl : fault = .badNumeral figures := hfault
      exact ⟨numeral, span, List.mem_of_getElem? hnumeral, hdecode⟩

end Token

namespace Expression

variable {limits : Limits} {text : Text} {rejection : Rejection} {ts : List Token}

theorem stage?_of_tokens_error (h : tokens limits text = .error rejection) :
    rejection.fault.stage? = some .reading := by
  obtain ⟨result, hverdict⟩ := exists_verdict limits text
  obtain rfl := (tokens_eq_of_verdict hverdict).symm.trans h
  cases hverdict <;> rfl

/-- What is wrong with a text is found when it is read or when its tokens are added up. -/
theorem stage?_of_total_error (h : total limits text = .error rejection) :
    rejection.fault.stage? = some .reading ∨ rejection.fault.stage? = some .adding := by
  rcases tokens_or_total_error h with h | ⟨ts, hts, h⟩
  · exact .inl (stage?_of_tokens_error h)
  · rcases Token.stage?_of_total_error h with ⟨hnil, _⟩ | hstage
    · exact absurd hnil (tokens_eq_ok_iff.1 hts).2.2.1
    · exact .inr hstage

theorem digitRun_of_badNumeral {figures : Text} {span? : Option Span}
    (h : total limits text = .error ⟨.badNumeral figures, span?⟩) :
    text.DigitRun figures ∧ Amount.greatest < Decimal.value figures := by
  rcases tokens_or_total_error h with h | ⟨ts, hts, h⟩
  · cases stage?_of_tokens_error h
  · obtain ⟨numeral, span, htoken, hdecode⟩ := Token.exists_numeral_of_badNumeral h rfl
    have hproper := proper_of_tokens hts _ htoken
    obtain ⟨rfl, hgreatest⟩ := Numeral.digits_of_decode_eq_badNumeral hproper hdecode
    exact ⟨(Token.tiling_of_scanFrom (tokens_eq_ok_iff.1 hts).2.1).digitRun htoken, hgreatest⟩

/-- Only a text without tokens is empty, and it is blamed as a whole. -/
theorem tokens_of_empty {span? : Option Span} (h : total limits text = .error ⟨.empty, span?⟩) :
    tokens limits text = .error ⟨.empty, span?⟩ ∧ span? = some (.whole text) := by
  rcases tokens_or_total_error h with h | ⟨ts, hts, h⟩
  · refine ⟨h, ?_⟩
    obtain ⟨result, hverdict⟩ := exists_verdict limits text
    obtain rfl := (tokens_eq_of_verdict hverdict).symm.trans h
    cases hverdict
    rfl
  · rcases Token.stage?_of_total_error h with ⟨hnil, _⟩ | hstage
    · exact absurd hnil (tokens_eq_ok_iff.1 hts).2.2.1
    · cases hstage

/-- **Reading and valuing agree**: a numeral of a text is a run of its script and has a value unless
that is too great. So no letter of an expression is ever blamed for not being Roman, and no
expression that is a text for not being one; a numeral is blamed for being no number only if it is a
longest run of digits that denotes too much; and only the reader finds an expression empty, which
it blames on the whole text. No tokens at all, not even such as no text has, are blamed for a
letter. -/
theorem reading_agrees_with_valuing :
    (∀ limits text ts, tokens limits text = .ok ts →
      ∀ numeral span, ⟨.numeral numeral, span⟩ ∈ ts →
        (Lexeme.numeral numeral).Proper ∧
          ((∃ fault, numeral.decode = .error fault) ↔ Amount.greatest < numeral.denoted)) ∧
    (∀ limits text fault span?, total limits text = .error ⟨fault, span?⟩ →
      (∀ c, fault ≠ .badRomanLetter c) ∧ fault ≠ .notText ∧
        (∀ figures, fault = .badNumeral figures →
          text.DigitRun figures ∧ Amount.greatest < Decimal.value figures) ∧
        (fault = .empty →
          tokens limits text = .error ⟨.empty, span?⟩ ∧ span? = some (.whole text))) ∧
    ∀ ts fault span?, Token.total ts = .error ⟨fault, span?⟩ → ∀ c, fault ≠ .badRomanLetter c := by
  refine ⟨?_, ?_, ?_⟩
  · intro limits text ts hts numeral span htoken
    have hproper := proper_of_tokens hts _ htoken
    exact ⟨hproper, Numeral.decode_eq_error_iff_of_proper hproper⟩
  · intro limits text fault span? h
    have hstage := stage?_of_total_error h
    refine ⟨?_, ?_, ?_, ?_⟩
    · rintro c rfl
      rcases hstage with hstage | hstage <;> cases hstage
    · rintro rfl
      rcases hstage with hstage | hstage <;> cases hstage
    · rintro figures rfl
      exact digitRun_of_badNumeral h
    · rintro rfl
      exact tokens_of_empty h
  · rintro ts fault span? h c rfl
    rcases Token.stage?_of_total_error h with ⟨_, hrejection⟩ | hstage
    · cases hrejection
    · cases hstage

/-- A run of digits that is one too great, a blank text, and a token that no text has. -/
theorem reading_agrees_with_valuing_at_bounds :
    total {} "x-9223372036854775808".toList =
        .error ((Fault.badNumeral "9223372036854775808".toList).inSpan ⟨2, 21⟩) ∧
      Text.DigitRun "x-9223372036854775808".toList "9223372036854775808".toList ∧
      (∃ fault, Numeral.decode ⟨.digits, "9223372036854775808".toList⟩ = .error fault) ∧
      tokens {} "\u3000".toList = .error ⟨.empty, some ⟨0, 3⟩⟩ ∧
      Token.total [⟨.numeral ⟨.roman, ['q']⟩, ⟨0, 1⟩⟩] =
        .error ((Fault.badNumeral ['q']).inSpan ⟨0, 1⟩) := by
  have hdigits : total {} "x-9223372036854775808".toList =
      .error ((Fault.badNumeral "9223372036854775808".toList).inSpan ⟨2, 21⟩) := rfl
  have htokens : tokens {} "9223372036854775808".toList =
      .ok [⟨.numeral ⟨.digits, "9223372036854775808".toList⟩, ⟨0, 19⟩⟩] := rfl
  have hblank : total {} "\u3000".toList = .error (Fault.empty.inSpan ⟨0, 3⟩) := rfl
  obtain ⟨hread, htotal, _⟩ := reading_agrees_with_valuing
  exact ⟨hdigits, ((htotal _ _ _ _ hdigits).2.2.1 _ rfl).1,
    (hread _ _ _ htokens _ _ List.mem_cons_self).2.2 (by decide),
    ((htotal _ _ _ _ hblank).2.2.2 rfl).1, rfl⟩

end Expression

end RomanInvoice
