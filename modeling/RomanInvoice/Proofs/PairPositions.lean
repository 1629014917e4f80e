import Mathlib.Algebra.BigOperators.Fin
import RomanInvoice.Proofs.Number

/-!
# Pair positions — Roman numerals in closed form

The reader takes one letter or two at a time, so where candidates for a pair overlap, as in `IXL`,
what it takes depends on all that came before. `Roman.opensPair` says for each position whether the
reader takes a pair there, by the positions alone. A pair counts for the second letter less the
first; so a numeral is worth all its letters less twice those that open a pair
(`Roman.value_eq_signedSum`).
-/

namespace RomanInvoice.Roman

/-- Whether the letter at a position and the one behind it are a subtractive pair. -/
def pairAt (letters : List Letter) (i : Nat) : Bool :=
  match letters[i]?, letters[i + 1]? with
  | some a, some b => (pairValue? a b).isSome
  | _, _ => false

/-- Whether a pair is taken at a position: one stands there, and none is taken just before. -/
def opensPair (letters : List Letter) : Nat → Bool
  | 0 => pairAt letters 0
  | i + 1 => pairAt letters (i + 1) && !opensPair letters i

/-- The positions at which a pair is taken. -/
def pairPositions (letters : List Letter) : Finset (Fin letters.length) :=
  Finset.univ.filter fun i => opensPair letters i

/-- All letters less twice those that open a pair. -/
def signedSum (letters : List Letter) : Int :=
  ∑ i : Fin letters.length, (letters[i].value : Int) -
    2 * ∑ i ∈ pairPositions letters, (letters[i].value : Int)

/-- Of the overlapping candidates `IX`, `XC` and `CM` every other one is taken. -/
example : pairPositions [.i, .x, .c, .m] = {0, 2} := by decide

/-! ## Positions behind the first ones -/

section Positions

variable {a b : Letter} {letters : List Letter}

theorem pairAt_cons_succ (i : Nat) : pairAt (a :: letters) (i + 1) = pairAt letters i := rfl

theorem opensPair_zero : opensPair (a :: b :: letters) 0 = (pairValue? a b).isSome := rfl

theorem opensPair_succ (i : Nat) :
    opensPair letters (i + 1) = (pairAt letters (i + 1) && !opensPair letters i) := rfl

theorem opensPair_one (h : opensPair letters 0) : opensPair letters 1 = false := by
  rw [opensPair_succ, h, Bool.not_true, Bool.and_false]

/-- Behind a letter that opens no pair the reader starts afresh. -/
theorem opensPair_cons_succ (h : opensPair (a :: letters) 0 = false) (i : Nat) :
    opensPair (a :: letters) (i + 1) = opensPair letters i := by
  induction i with
  | zero =>
    rw [opensPair_succ, h, Bool.not_false, Bool.and_true]
    rfl
  | succ i ih => rw [opensPair_succ, ih, pairAt_cons_succ, opensPair_succ]

/-- Behind a pair the reader starts afresh. -/
theorem opensPair_cons_cons_add_two (h : opensPair (a :: b :: letters) 0) (i : Nat) :
    opensPair (a :: b :: letters) (i + 2) = opensPair letters i := by
  induction i with
  | zero =>
    rw [opensPair_succ, opensPair_one h, Bool.not_false, Bool.and_true]
    rfl
  | succ i ih => rw [opensPair_succ, ih, pairAt_cons_succ, pairAt_cons_succ, opensPair_succ]

end Positions

/-! ## The sum with signs -/

/-- What the letter at a position adds: its value, taken from nothing where it opens a pair. -/
def contribution (letters : List Letter) (i : Fin letters.length) : Int :=
  if opensPair letters i then -letters[i].value else letters[i].value

theorem signedSum_eq_sum (letters : List Letter) :
    signedSum letters = ∑ i, contribution letters i := by
  rw [signedSum, pairPositions, Finset.mul_sum, Finset.sum_filter, ← Finset.sum_sub_distrib]
  refine Finset.sum_congr rfl fun i _ => ?_
  unfold contribution
  split <;> omega

theorem signedSum_cons {a : Letter} {letters : List Letter}
    (h : opensPair (a :: letters) 0 = false) :
    signedSum (a :: letters) = a.value + signedSum letters := by
  have hfirst : contribution (a :: letters) 0 = a.value := by simp [contribution, h]
  have hrest (i : Fin letters.length) :
      contribution (a :: letters) i.succ = contribution letters i := by
    simp [contribution, opensPair_cons_succ h]
  rw [signedSum_eq_sum, signedSum_eq_sum]
  calc
    _ = contribution (a :: letters) 0 + ∑ i : Fin letters.length,
        contribution (a :: letters) i.succ := Fin.sum_univ_succ _
    _ = a.value + ∑ i, contribution letters i := by simp only [hfirst, hrest]

theorem signedSum_cons_cons {a b : Letter} {letters : List Letter}
    (h : opensPair (a :: b :: letters) 0) :
    signedSum (a :: b :: letters) = b.value - a.value + signedSum letters := by
  have hfirst : contribution (a :: b :: letters) 0 = -a.value := by simp [contribution, h]
  have hsecond : contribution (a :: b :: letters) 1 = b.value := by
    simp [contribution, opensPair_one h]
  have hrest (i : Fin letters.length) :
      contribution (a :: b :: letters) i.succ.succ = contribution letters i := by
    simp [contribution, opensPair_cons_cons_add_two h]
  rw [signedSum_eq_sum, signedSum_eq_sum]
  calc
    _ = contribution (a :: b :: letters) 0 + (contribution (a :: b :: letters) 1 +
        ∑ i : Fin letters.length, contribution (a :: b :: letters) i.succ.succ) :=
      (Fin.sum_univ_succ _).trans (congrArg _ (Fin.sum_univ_succ _))
    _ = b.value - a.value + ∑ i, contribution letters i := by
      simp only [hfirst, hsecond, hrest]
      omega

/-- **A numeral is worth all its letters less twice those that open a pair.** -/
theorem value_eq_signedSum (letters : List Letter) : (value letters : Int) = signedSum letters := by
  induction letters using value.induct with
  | case1 => rfl
  | case2 a =>
    rw [signedSum_cons rfl]
    rfl
  | case3 a b letters pair hpair ih =>
    have hopens : opensPair (a :: b :: letters) 0 := by rw [opensPair_zero, hpair]; rfl
    have hdifference := (of_pairValue?_eq_some hpair).2.1
    rw [signedSum_cons_cons hopens, ← ih, value, hpair]
    simp only
    omega
  | case4 a b letters hnone ih =>
    have hopens : opensPair (a :: b :: letters) 0 = false := by rw [opensPair_zero, hnone]; rfl
    rw [signedSum_cons hopens, ← ih, value, hnone]
    simp only
    omega

/-! ## The closed form -/

/-- A numeral has to be very long for its value to be no amount. -/
theorem fits_value {letters : List Letter} (h : letters.length ≤ 9223372036854775) :
    Amount.Fits (value letters) := by
  have hhigh := (value_bounds letters).2
  rw [Amount.fits_natCast_iff, Amount.greatest]
  omega

theorem decode_map_toChar_of_length_le {letters : List Letter}
    (h : letters.length ≤ 9223372036854775) :
    decode (letters.map Letter.toChar) = .ok (value letters) := by
  rw [decode_map_toChar, if_pos (fits_value h)]

/-- **Roman numerals in closed form**: the longest run of letters at the front of a text comes to
all its letters less twice those that open a pair. It is an overflow if that is no amount. Else the
character behind the run is at fault, if there is one, and if there is none the sum is the value.
The sum lies between the number of the letters and a thousand times as much, so an overflow takes a
text of more than 9223372036854775 characters. -/
theorem decode_closed_form (text : Text) :
    ∃ (letters : List Letter) (rest : Text),
      text = letters.map Letter.toChar ++ rest ∧
      (∀ c ∈ rest.head?, ∀ letter : Letter, c ≠ letter.toChar) ∧
      (decode text).map Int.ofNat =
        (if Amount.greatest < signedSum letters then .error .overflow
        else match rest with
          | [] => .ok (signedSum letters)
          | c :: _ => .error (.badRomanLetter c)) ∧
      letters.length ≤ signedSum letters ∧ signedSum letters ≤ 1000 * letters.length ∧
      (text.length ≤ 9223372036854775 → decode text ≠ .error .overflow) := by
  obtain ⟨letters, rest, rfl, hrest⟩ := exists_letters_append text
  obtain ⟨hlow, hhigh⟩ := value_bounds letters
  refine ⟨letters, rest, rfl, fun c hc => not_isCapital_iff.1 (hrest c hc), ?_, ?_, ?_, ?_⟩
  · rw [decode_append letters hrest, ← value_eq_signedSum]
    by_cases hfits : Amount.Fits (value letters)
    · rw [if_pos hfits, if_neg (Int.not_lt.2 hfits.2)]
      cases rest <;> rfl
    · rw [if_neg hfits, if_pos (Int.not_le.1 fun hle => hfits (Amount.fits_natCast_iff.2 hle))]
      rfl
  · rw [← value_eq_signedSum]
    omega
  · rw [← value_eq_signedSum]
    omega
  · intro hlength
    rw [List.length_append, List.length_map] at hlength
    rw [decode_append letters hrest, if_pos (fits_value (by omega))]
    cases rest <;> exact nofun

end RomanInvoice.Roman
