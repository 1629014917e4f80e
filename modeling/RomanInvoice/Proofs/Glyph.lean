import RomanInvoice.Token.Scan

/-!
# Glyphs — the classes of characters

A character is read as a blank, an operator, a digit or a Roman letter. `Glyph.ofChar?` asks for
these classes one after the other; here they are shown to be disjoint, so that the glyph of a
character is known from any one of its classes (`Glyph.ofChar?_eq_blank_iff` and its siblings) and
a character without a glyph is in none of them (`Glyph.ofChar?_eq_none_iff`).
-/

namespace RomanInvoice

/-- A character that may stand in an expression. -/
def Legal (c : Char) : Prop :=
  isBlank c ∨ (∃ op : Operator, c = op.toChar) ∨ c.isDigit ∨ (Roman.Letter.ofSpelling? c).isSome

/-- The capital of the Roman letter that a character spells. -/
def Roman.capital? (c : Char) : Option Char :=
  (Letter.ofSpelling? c).map Letter.toChar

/-- A character as it stands in a token: Roman letters as capitals, all others unchanged. -/
def Roman.capitalized (c : Char) : Char :=
  (capital? c).getD c

/-! ## Characters of one class -/

theorem isBlank_iff {c : Char} :
    isBlank c ↔ 0x9 ≤ c.toNat ∧ c.toNat ≤ 0xd ∨ c.toNat = 0x20 ∨ c.toNat = 0x85 ∨ c.toNat = 0xa0
      ∨ c.toNat = 0x1680 ∨ 0x2000 ≤ c.toNat ∧ c.toNat ≤ 0x200a
      ∨ 0x2028 ≤ c.toNat ∧ c.toNat ≤ 0x2029 ∨ c.toNat = 0x202f ∨ c.toNat = 0x205f
      ∨ c.toNat = 0x3000 := by
  simp only [isBlank, CodeRanges.holds, blankRanges, CodeRanges.covers, Bool.and_eq_true,
    Bool.or_eq_true, decide_eq_true_eq, Bool.false_eq_true, or_false]
  omega

theorem isDigit_iff {c : Char} : c.isDigit ↔ 0x30 ≤ c.toNat ∧ c.toNat ≤ 0x39 := by
  simp only [Char.isDigit, Bool.and_eq_true, decide_eq_true_eq, ge_iff_le, UInt32.le_iff_toNat_le]
  rfl

theorem Operator.isBlank_toChar (op : Operator) : isBlank op.toChar = false := by
  cases op <;> decide

theorem Operator.isDigit_toChar (op : Operator) : op.toChar.isDigit = false := by
  cases op <;> decide

theorem Operator.ofSpelling?_toChar (op : Operator) :
    Roman.Letter.ofSpelling? op.toChar = none := by
  cases op <;> decide

/-- A character that spells a Roman letter is one of the seven capitals, one of the seven small
letters, or the dotless `ı`. -/
theorem Roman.Letter.mem_spellings {c : Char} {letter : Roman.Letter}
    (h : ofSpelling? c = some letter) : c ∈ "IVXLCDMivxlcdmı".toList := by
  unfold ofSpelling? ofChar? at h
  split at h
  case h_9 =>
    split at h
    case h_8 => cases h
    all_goals decide
  all_goals decide

theorem Roman.Letter.isBlank_of_ofSpelling? {c : Char} {letter : Roman.Letter}
    (h : ofSpelling? c = some letter) : isBlank c = false := by
  have hall : "IVXLCDMivxlcdmı".toList.all (!isBlank ·) := by decide
  simpa using List.all_eq_true.1 hall c (mem_spellings h)

theorem Roman.Letter.isDigit_of_ofSpelling? {c : Char} {letter : Roman.Letter}
    (h : ofSpelling? c = some letter) : c.isDigit = false := by
  have hall : "IVXLCDMivxlcdmı".toList.all (!·.isDigit) := by decide
  simpa using List.all_eq_true.1 hall c (mem_spellings h)

theorem Roman.capitalized_of_isDigit {c : Char} (h : c.isDigit) : capitalized c = c := by
  unfold capitalized capital?
  cases hletter : Letter.ofSpelling? c with
  | none => rfl
  | some letter =>
    rw [Letter.isDigit_of_ofSpelling? hletter] at h
    cases h

theorem Operator.capitalized_toChar (op : Operator) :
    Roman.capitalized op.toChar = op.toChar := by
  cases op <;> decide

theorem isBlank_of_isDigit {c : Char} (h : c.isDigit) : isBlank c = false := by
  rw [isDigit_iff] at h
  rw [← Bool.not_eq_true, isBlank_iff]
  omega

theorem Operator.ofChar?_of_isDigit {c : Char} (h : c.isDigit) : ofChar? c = none := by
  cases hop : ofChar? c with
  | none => rfl
  | some op =>
    rw [ofChar?_eq_some_iff.1 hop, isDigit_toChar] at h
    cases h

theorem Operator.ofChar?_of_ofSpelling? {c : Char} {letter : Roman.Letter}
    (h : Roman.Letter.ofSpelling? c = some letter) : ofChar? c = none := by
  cases hop : ofChar? c with
  | none => rfl
  | some op =>
    rw [ofChar?_eq_some_iff.1 hop, ofSpelling?_toChar] at h
    cases h

/-! ## The glyph of a character -/

namespace Glyph

theorem ofChar?_eq_blank_iff {c : Char} : ofChar? c = some blank ↔ isBlank c := by
  unfold ofChar?
  split
  · next h => simp [h]
  · next h =>
    split
    · simp [h]
    · split <;> simp [h]

theorem ofChar?_toChar (op : Operator) : ofChar? op.toChar = some (operator op) := by
  unfold ofChar?
  rw [op.isBlank_toChar, Operator.ofChar?_toChar]
  rfl

theorem ofChar?_of_isDigit {c : Char} (h : c.isDigit) :
    ofChar? c = some (figure .digits c) := by
  unfold ofChar?
  rw [isBlank_of_isDigit h, Operator.ofChar?_of_isDigit h, h]
  rfl

theorem ofChar?_of_ofSpelling? {c : Char} {letter : Roman.Letter}
    (h : Roman.Letter.ofSpelling? c = some letter) :
    ofChar? c = some (figure .roman letter.toChar) := by
  unfold ofChar?
  rw [Roman.Letter.isBlank_of_ofSpelling? h, Operator.ofChar?_of_ofSpelling? h,
    Roman.Letter.isDigit_of_ofSpelling? h, h]
  rfl

theorem ofChar?_of_not_legal {c : Char} (h : ¬ Legal c) : ofChar? c = none := by
  have hblank : ¬ isBlank c := fun hc => h (.inl hc)
  have hop : Operator.ofChar? c = none := by
    cases hop : Operator.ofChar? c with
    | none => rfl
    | some op => exact absurd (.inr (.inl ⟨op, Operator.ofChar?_eq_some_iff.1 hop⟩)) h
  have hdigit : ¬ c.isDigit := fun hc => h (.inr (.inr (.inl hc)))
  have hletter : Roman.Letter.ofSpelling? c = none := by
    rw [← Option.not_isSome_iff_eq_none]
    exact fun hc => h (.inr (.inr (.inr hc)))
  simp [ofChar?, hblank, hop, hdigit, hletter]

/-- What the glyph of a character, or the lack of one, says of the character. -/
def Describes (c : Char) : Option Glyph → Prop
  | none => ¬ Legal c
  | some blank => isBlank c
  | some (operator op) => c = op.toChar
  | some (figure .digits d) => c.isDigit ∧ d = c
  | some (figure .roman d) => Roman.capital? c = some d

theorem describes_ofChar? (c : Char) : Describes c (ofChar? c) := by
  by_cases h : Legal c
  · rcases h with hblank | ⟨op, rfl⟩ | hdigit | hletter
    · rw [ofChar?_eq_blank_iff.2 hblank]
      exact hblank
    · rw [ofChar?_toChar]
      rfl
    · rw [ofChar?_of_isDigit hdigit]
      exact ⟨hdigit, rfl⟩
    · obtain ⟨letter, hletter⟩ := Option.isSome_iff_exists.1 hletter
      rw [ofChar?_of_ofSpelling? hletter]
      show Roman.capital? c = some letter.toChar
      rw [Roman.capital?, hletter]
      rfl
  · rw [ofChar?_of_not_legal h]
    exact h

theorem ofChar?_eq_operator_iff {c : Char} {op : Operator} :
    ofChar? c = some (operator op) ↔ c = op.toChar := by
  constructor
  · intro h
    have hc := describes_ofChar? c
    rw [h] at hc
    exact hc
  · intro h
    subst h
    exact ofChar?_toChar op

theorem ofChar?_eq_digit_iff {c d : Char} :
    ofChar? c = some (figure .digits d) ↔ c.isDigit ∧ d = c := by
  constructor
  · intro h
    have hc := describes_ofChar? c
    rw [h] at hc
    exact hc
  · intro h
    obtain ⟨hc, rfl⟩ := h
    exact ofChar?_of_isDigit hc

theorem ofChar?_eq_roman_iff {c d : Char} :
    ofChar? c = some (figure .roman d) ↔ Roman.capital? c = some d := by
  constructor
  · intro h
    have hc := describes_ofChar? c
    rw [h] at hc
    exact hc
  · intro h
    obtain ⟨letter, hletter, rfl⟩ := Option.map_eq_some_iff.1 h
    exact ofChar?_of_ofSpelling? hletter

/-- A figure stands in a token as the capital of its character. -/
theorem eq_capitalized {c d : Char} {script : Script}
    (h : ofChar? c = some (figure script d)) : d = Roman.capitalized c := by
  cases script with
  | digits =>
    obtain ⟨hc, rfl⟩ := ofChar?_eq_digit_iff.1 h
    exact (Roman.capitalized_of_isDigit hc).symm
  | roman => rw [Roman.capitalized, ofChar?_eq_roman_iff.1 h, Option.getD_some]

theorem ofChar?_eq_none_iff {c : Char} : ofChar? c = none ↔ ¬ Legal c := by
  refine ⟨?_, ofChar?_of_not_legal⟩
  intro h
  have hc := describes_ofChar? c
  rw [h] at hc
  exact hc

theorem isSome_ofChar?_iff {c : Char} : (ofChar? c).isSome ↔ Legal c := by
  rw [Option.isSome_iff_ne_none, ne_eq, ofChar?_eq_none_iff, Classical.not_not]

end Glyph

theorem legal_of_all {text : Text} (h : text.all fun c => (Glyph.ofChar? c).isSome) :
    ∀ c ∈ text, Legal c :=
  fun c hc => Glyph.isSome_ofChar?_iff.1 (List.all_eq_true.1 h c hc)

/-! ## The script of a figure -/

namespace Script

/-- The script of which a character is a figure. -/
def ofChar? (c : Char) : Option Script :=
  match Glyph.ofChar? c with
  | some (.figure script _) => some script
  | _ => none

theorem ofChar?_eq_some_iff {c : Char} {script : Script} :
    ofChar? c = some script ↔ ∃ d, Glyph.ofChar? c = some (.figure script d) := by
  unfold ofChar?
  split <;> simp_all

theorem ofChar?_eq_digits_iff {c : Char} : ofChar? c = some .digits ↔ c.isDigit := by
  simp [ofChar?_eq_some_iff, Glyph.ofChar?_eq_digit_iff]

theorem ofChar?_eq_roman_iff {c : Char} :
    ofChar? c = some .roman ↔ (Roman.Letter.ofSpelling? c).isSome := by
  simp only [ofChar?_eq_some_iff, Glyph.ofChar?_eq_roman_iff, Roman.capital?,
    ← Option.isSome_iff_exists, Option.isSome_map]

theorem ofChar?_of_isBlank {c : Char} (h : isBlank c) : ofChar? c = none := by
  rw [ofChar?, Glyph.ofChar?_eq_blank_iff.2 h]

theorem ofChar?_toChar (op : Operator) : ofChar? op.toChar = none := by
  rw [ofChar?, Glyph.ofChar?_toChar]

end Script

end RomanInvoice
