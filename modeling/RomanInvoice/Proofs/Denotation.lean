import Mathlib.Data.Nat.Digits.Defs
import RomanInvoice.Proofs.PairPositions
import RomanInvoice.Proofs.Utf8.Reader

/-!
# Denotations — the texts that are numerals

A text is a numeral in two cases: it is a run of digits, and then worth what its digits are worth in
their places, or it is a run of Roman capitals, and then worth what they are worth together. Every
other text is refused as a whole. `Numeral.Denotes` lists the cases for a text alone, since the
script that a numeral is labelled with has no part in its value. A run of digits may be told by its
bytes as well (`Text.isDecimal_iff_bytes`), as no byte of a longer character is one of a digit.
-/

namespace RomanInvoice

/-- A run of digits that is not empty. -/
def Text.IsDecimal (text : Text) : Prop :=
  text ≠ [] ∧ ∀ c ∈ text, c.isDigit

/-- A run of Roman capitals that is not empty. -/
def Text.IsRoman (text : Text) : Prop :=
  text ≠ [] ∧ ∀ c ∈ text, ∃ letter : Roman.Letter, c = letter.toChar

/-- The sum of the digits of a text, each times the power of ten for its place. -/
def Decimal.placeValue (digits : Text) : Nat :=
  Nat.ofDigits 10 (digits.reverse.map digitValue)

theorem Decimal.value_eq_placeValue (digits : Text) : value digits = placeValue digits := by
  rw [value, placeValue, Nat.ofDigits_eq_foldr, List.foldr_map, List.foldr_reverse]
  simp only [Nat.cast_id, Nat.add_comm]

/-! ## Digits as bytes -/

theorem Utf8.isDigit_iff_bytes {c : Char} :
    c.isDigit ↔ ∀ b ∈ String.utf8EncodeChar c, 0x30 ≤ b ∧ b ≤ 0x39 := by
  simp only [isDigit_iff, UInt8.le_iff_toNat_le, UInt8.reduceToNat]
  constructor
  · intro h
    obtain ⟨b, hb⟩ := exists_byte (n := c.toNat) (by omega)
    rw [utf8EncodeChar_of_one hb.symm (by omega), List.forall_mem_singleton, hb]
    exact h
  · intro h
    obtain ⟨b, bytes, pending, hbytes, hlead, hcompletes⟩ := exists_lead c
    rw [hbytes, List.forall_mem_cons] at h
    cases hlead with
    | alone =>
      rw [(Pending.completes_nil_iff.1 hcompletes).2]
      exact h.1
    | one | two | three => omega

theorem Text.isDecimal_iff_bytes {text : Text} :
    text.IsDecimal ↔ text ≠ [] ∧ ∀ b ∈ Utf8.encode text, 0x30 ≤ b ∧ b ≤ 0x39 := by
  refine and_congr_right' ⟨?_, ?_⟩
  · intro h b hb
    obtain ⟨c, hc, hb⟩ := List.mem_flatMap.1 hb
    exact Utf8.isDigit_iff_bytes.1 (h c hc) b hb
  · intro h c hc
    exact Utf8.isDigit_iff_bytes.2 fun b hb => h b (List.mem_flatMap.2 ⟨c, hc, hb⟩)

/-! ## The value of a text -/

namespace Numeral

/-- What a text is worth as a numeral, or that it is none. -/
inductive Denotes (text : Text) : Except Fault Nat → Prop where
  | decimal : text.IsDecimal → (Decimal.placeValue text : Int) ≤ Amount.greatest →
    Denotes text (.ok (Decimal.placeValue text))
  | tooLarge : text.IsDecimal → Amount.greatest < Decimal.placeValue text →
    Denotes text (.error (.badNumeral text))
  | roman {n : Nat} : text.IsRoman → Roman.decode text = .ok n → Denotes text (.ok n)
  | neither : ¬ text.IsDecimal → ¬ text.IsRoman → Denotes text (.error (.badNumeral text))

section Denotes

variable {script : Script} {text : Text} {result : Except Fault Nat}

theorem decode_of_isDecimal (h : text.IsDecimal) :
    decode ⟨script, text⟩ =
      if Amount.Fits (Decimal.placeValue text) then .ok (Decimal.placeValue text)
      else .error (.badNumeral text) := by
  rw [← Decimal.value_eq_placeValue]
  exact Number.decode_numeral (.decimal text h.1 h.2)

theorem exists_letters_of_isRoman (h : text.IsRoman) :
    ∃ letters : List Roman.Letter, letters ≠ [] ∧ text = letters.map Roman.Letter.toChar := by
  obtain ⟨letters, rfl⟩ :=
    Roman.exists_letters_of_forall fun c hc => Roman.isCapital_iff.2 (h.2 c hc)
  exact ⟨letters, fun hnil => h.1 (List.map_eq_nil_iff.2 hnil), rfl⟩

theorem decode_of_isRoman (h : text.IsRoman) : decode ⟨script, text⟩ = Roman.decode text := by
  obtain ⟨letters, hne, rfl⟩ := exists_letters_of_isRoman h
  rw [Roman.decode_map_toChar]
  exact Number.decode_numeral (.roman letters hne)

theorem decode_of_neither (hdecimal : ¬ text.IsDecimal) (hroman : ¬ text.IsRoman) :
    decode ⟨script, text⟩ = .error (.badNumeral text) := by
  by_cases hne : text = []
  · exact if_pos hne
  have hdigits : ¬ text.all Char.isDigit := fun h => hdecimal ⟨hne, List.all_eq_true.1 h⟩
  have hcapitals : ¬ text.all Roman.isCapital := fun h =>
    hroman ⟨hne, fun c hc => Roman.isCapital_iff.1 (List.all_eq_true.1 h c hc)⟩
  rw [decode, if_neg hne, if_neg hdigits, if_neg hcapitals]

theorem decode_eq_of_denotes (h : Denotes text result) : decode ⟨script, text⟩ = result := by
  cases h with
  | decimal htext hle => rw [decode_of_isDecimal htext, if_pos (Amount.fits_natCast_iff.2 hle)]
  | tooLarge htext hlt =>
    rw [decode_of_isDecimal htext, if_neg fun hfits => Int.not_lt.2 hfits.2 hlt]
  | roman htext hdecode => rw [decode_of_isRoman htext, hdecode]
  | neither hdecimal hroman => exact decode_of_neither hdecimal hroman

theorem exists_denotes (h : text.length ≤ 9223372036854775) : ∃ result, Denotes text result := by
  by_cases hdecimal : text.IsDecimal
  · by_cases hle : (Decimal.placeValue text : Int) ≤ Amount.greatest
    · exact ⟨_, .decimal hdecimal hle⟩
    · exact ⟨_, .tooLarge hdecimal (Int.not_le.1 hle)⟩
  by_cases hroman : text.IsRoman
  · obtain ⟨letters, _, rfl⟩ := exists_letters_of_isRoman hroman
    rw [List.length_map] at h
    exact ⟨_, .roman hroman (Roman.decode_map_toChar_of_length_le h)⟩
  · exact ⟨_, .neither hdecimal hroman⟩

/-- **Two languages of numerals**: a text is worth its place value if it is a run of digits and that
is an amount, and what the reader of Roman letters gives if it is a run of capitals. Every other
text is at fault as a whole, whatever the script it is labelled with; the fault has no place. -/
theorem decode_eq_iff_denotes (hlength : text.length ≤ 9223372036854775) :
    (∀ script result, decode ⟨script, text⟩ = result ↔ Denotes text result) ∧
      (text.IsDecimal ↔ text ≠ [] ∧ ∀ b ∈ Utf8.encode text, 0x30 ≤ b ∧ b ≤ 0x39) := by
  refine ⟨fun script result => ⟨?_, decode_eq_of_denotes⟩, Text.isDecimal_iff_bytes⟩
  intro h
  -- a denotation fixes the result, so the one there is must be the one of this result
  obtain ⟨result', hdenotes⟩ := exists_denotes hlength
  rw [← h, decode_eq_of_denotes hdenotes]
  exact hdenotes

/-- Zeros in front do no harm at the greatest amount. One more is too much, and a sign, a small
letter and digits of another alphabet are no part of a numeral. -/
theorem decode_eq_iff_denotes_at_bounds :
    Denotes "009223372036854775807".toList (.ok 9223372036854775807) ∧
      Denotes "9223372036854775808".toList (.error (.badNumeral "9223372036854775808".toList)) ∧
      Denotes "IXL".toList (.ok 59) ∧ Denotes "+5".toList (.error (.badNumeral "+5".toList)) ∧
      Denotes "xI".toList (.error (.badNumeral "xI".toList)) ∧
      Denotes "\u0661\u0662".toList (.error (.badNumeral "\u0661\u0662".toList)) :=
  ⟨((decode_eq_iff_denotes (by decide)).1 .digits _).1 rfl,
    ((decode_eq_iff_denotes (by decide)).1 .digits _).1 rfl,
    ((decode_eq_iff_denotes (by decide)).1 .digits _).1 rfl,
    ((decode_eq_iff_denotes (by decide)).1 .digits _).1 rfl,
    ((decode_eq_iff_denotes (by decide)).1 .roman _).1 rfl,
    ((decode_eq_iff_denotes (by decide)).1 .digits _).1 rfl⟩

end Denotes

end Numeral

end RomanInvoice
