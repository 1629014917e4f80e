import RomanInvoice.Proofs.Greedy
import RomanInvoice.Proofs.PairPositions

/-!
# Signs — when the values of numerals add up

Reading a Roman numeral from the left cuts it into signs (`Roman.signs`), and its value is the sum
of theirs. Two numerals in a row are cut as they are cut alone, unless the last letter of the first
one stands alone and makes a pair with the first letter of the second. Then the signs of the second
numeral may be cut in quite another way: `I` and `XL` become `IX` and `L`, and `I` and `XCM` become
`IX` and `CM`. Still the value is sure to change (`Roman.value_cons_eq_add_iff`): what a letter
loses in a pair is twice its value less a multiple of twice the value behind it, which is the
greater one.
-/

namespace RomanInvoice.Roman

/-- A letter that counts alone. -/
def Sign.ofLetter (a : Letter) : Sign :=
  ⟨a.value, [a]⟩

/-- The signs into which letters are cut, from the left. -/
def signs : List Letter → List Sign
  | [] => []
  | [a] => [.ofLetter a]
  | a :: b :: letters =>
    match pairValue? a b with
    | some pair => ⟨pair, [a, b]⟩ :: signs letters
    | none => .ofLetter a :: signs (b :: letters)

section Signs

variable {a b : Letter} {letters : List Letter}

theorem signs_pair {pair : Nat} (h : pairValue? a b = some pair) :
    signs (a :: b :: letters) = ⟨pair, [a, b]⟩ :: signs letters := by
  rw [signs, h]

theorem signs_cons (h : ∀ b ∈ letters.head?, pairValue? a b = none) :
    signs (a :: letters) = .ofLetter a :: signs letters := by
  cases letters with
  | nil => rfl
  | cons b letters => rw [signs, h b rfl]

theorem sum_map_value_signs (letters : List Letter) :
    ((signs letters).map Sign.value).sum = value letters := by
  induction letters using value.induct with
  | case1 => rfl
  | case2 a => rfl
  | case3 a b letters pair hpair ih =>
    rw [signs_pair hpair, List.map_cons, List.sum_cons, ih, value, hpair]
  | case4 a b letters hnone ih =>
    have hapart : ∀ next ∈ (b :: letters).head?, pairValue? a next = none := by simpa using hnone
    rw [signs_cons hapart, value_cons hapart, List.map_cons, List.sum_cons, ih]
    rfl

theorem signs_eq_nil_iff : signs letters = [] ↔ letters = [] := by
  cases letters with
  | nil => simp [signs]
  | cons a letters =>
    cases letters with
    | nil => simp [signs]
    | cons b letters =>
      unfold signs
      split <;> simp

/-- A numeral is one sign if it is a letter or a pair. -/
theorem signs_eq_singleton {sign : Sign} (h : signs letters = [sign]) :
    (∃ a, letters = [a] ∧ sign = .ofLetter a) ∨
      ∃ a b pair, letters = [a, b] ∧ pairValue? a b = some pair ∧ sign = ⟨pair, [a, b]⟩ := by
  cases letters with
  | nil => cases h
  | cons a letters =>
    cases letters with
    | nil =>
      cases h
      exact .inl ⟨a, rfl, rfl⟩
    | cons b letters =>
      cases hpair : pairValue? a b with
      | some pair =>
        rw [signs_pair hpair, List.cons.injEq, signs_eq_nil_iff] at h
        obtain ⟨rfl, rfl⟩ := h
        exact .inr ⟨a, b, pair, rfl, hpair, rfl⟩
      | none =>
        rw [signs, hpair, List.cons.injEq, signs_eq_nil_iff] at h
        cases h.2

/-- A numeral ends in a sign, and what comes before is cut as it is whatever follows. -/
theorem exists_last_sign (h : letters ≠ []) :
    ∃ front tail sign, letters = front ++ tail ∧ signs tail = [sign] ∧
      ∀ rest, signs (front ++ (tail ++ rest)) = signs front ++ signs (tail ++ rest) := by
  induction letters using signs.induct with
  | case1 => exact absurd rfl h
  | case2 a => exact ⟨[], [a], .ofLetter a, rfl, rfl, fun _ => rfl⟩
  | case3 a b letters pair hpair ih =>
    by_cases hne : letters = []
    · subst hne
      exact ⟨[], [a, b], ⟨pair, [a, b]⟩, rfl, signs_pair hpair, fun _ => rfl⟩
    · obtain ⟨front, tail, sign, rfl, htail, hcut⟩ := ih hne
      refine ⟨a :: b :: front, tail, sign, rfl, htail, fun rest => ?_⟩
      simp only [List.cons_append]
      rw [signs_pair hpair, signs_pair hpair, hcut, List.cons_append]
  | case4 a b letters hnone ih =>
    obtain ⟨front, tail, sign, hletters, htail, hcut⟩ := ih (List.cons_ne_nil _ _)
    refine ⟨a :: front, tail, sign, by rw [hletters, List.cons_append], htail, fun rest => ?_⟩
    have hfront : ∀ next ∈ front.head?, pairValue? a next = none := by
      cases front with
      | nil => simp
      | cons next front =>
        cases hletters
        simpa using hnone
    have hwhole : ∀ next ∈ (front ++ (tail ++ rest)).head?, pairValue? a next = none := by
      rw [← List.append_assoc, ← hletters]
      simpa using hnone
    rw [List.cons_append, signs_cons hwhole, signs_cons hfront, hcut, List.cons_append]

end Signs

/-! ## The value of letters in a row -/

section Values

variable {a b : Letter} {letters : List Letter}

/-- What a letter loses in front of letters is a multiple of twice its value. -/
theorem two_mul_dvd_value_cons (a : Letter) (letters : List Letter) :
    (2 * a.value : Int) ∣ a.value + value letters - value (a :: letters) := by
  induction letters generalizing a with
  | nil => simp [value]
  | cons b letters ih =>
    cases hpair : pairValue? a b with
    | none =>
      rw [value, hpair]
      simp
    | some pair =>
      obtain ⟨_, hdifference, hmultiple⟩ := of_pairValue?_eq_some hpair
      have hdvd : (2 * a.value : Int) ∣ 2 * b.value :=
        mul_dvd_mul_left 2 (Int.natCast_dvd_natCast.2 hmultiple)
      -- the letter is lost twice, and the one behind it no longer loses anything
      have hloss : (a.value + value (b :: letters) - value (a :: b :: letters) : Int) =
          2 * a.value - (b.value + value letters - value (b :: letters)) := by
        rw [value, hpair]
        simp only
        omega
      rw [hloss]
      exact dvd_sub (dvd_refl _) (hdvd.trans (ih b))

/-- A pair that a letter makes with letters behind it always tells, however they are cut then. -/
theorem value_cons_eq_add_iff :
    value (a :: b :: letters) = a.value + value (b :: letters) ↔ pairValue? a b = none := by
  constructor
  · intro heq
    cases hpair : pairValue? a b with
    | none => rfl
    | some pair =>
      obtain ⟨hlt, hdifference, _⟩ := of_pairValue?_eq_some hpair
      have hpos := a.one_le_value
      -- the letter behind would lose just twice the first, which is less than twice itself
      have hloss : (b.value + value letters - value (b :: letters) : Int) = 2 * a.value := by
        rw [value, hpair] at heq
        simp only at heq
        omega
      have hdvd := two_mul_dvd_value_cons b letters
      rw [hloss] at hdvd
      have hle := Int.le_of_dvd (by omega) hdvd
      omega
  · intro hnone
    exact value_cons (by simpa using hnone)

end Values

/-! ## Two numerals in a row -/

section Append

variable {a b : List Letter}

theorem value_append_of_signs (h : signs (a ++ b) = signs a ++ signs b) :
    value (a ++ b) = value a + value b := by
  rw [← sum_map_value_signs, h, List.map_append, List.sum_append, sum_map_value_signs,
    sum_map_value_signs]

/-- Values add up unless the last letter of the first numeral, which had counted alone, makes a pair
with the first letter of the second. -/
theorem value_append_eq_add_iff (ha : a ≠ []) (hb : b ≠ []) :
    value (a ++ b) = value a + value b ↔
      ¬ ((pairValue? (a.getLast ha) (b.head hb)).isSome ∧
        (signs a).getLast? = some (.ofLetter (a.getLast ha))) := by
  obtain ⟨front, tail, sign, rfl, htail, hcut⟩ := exists_last_sign ha
  obtain ⟨y, b, rfl⟩ := List.exists_cons_of_ne_nil hb
  have hsigns : signs (front ++ tail) = signs front ++ [sign] := by simpa [htail] using hcut []
  have hfirst : value (front ++ tail) = value front + value tail :=
    value_append_of_signs (by rw [hsigns, htail])
  have hboth : value (front ++ (tail ++ y :: b)) = value front + value (tail ++ y :: b) :=
    value_append_of_signs (hcut (y :: b))
  rw [List.append_assoc, hboth, hfirst, hsigns]
  rcases signs_eq_singleton htail with ⟨last, rfl, rfl⟩ | ⟨first, last, pair, rfl, hpair, rfl⟩
  · have hlast : (front ++ [last]).getLast ha = last := by simp
    have halone : (signs front ++ [Sign.ofLetter last]).getLast? = some (.ofLetter last) := by simp
    have hvalue : value [last] = last.value := rfl
    rw [hlast, List.head_cons, halone, List.singleton_append, hvalue, Nat.add_assoc,
      Nat.add_left_cancel_iff, value_cons_eq_add_iff]
    simp
  · have hnot : (signs front ++ [Sign.mk pair [first, last]]).getLast? ≠
        some (.ofLetter ((front ++ [first, last]).getLast ha)) := by
      simp [Sign.ofLetter]
    have hvalue : value ([first, last] ++ y :: b) = value [first, last] + value (y :: b) := by
      simp only [List.cons_append, List.nil_append, value, hpair]
      omega
    exact iff_of_true (by omega) fun h => hnot h.2

end Append

/-- **Exactly when values add up**: of two numerals in a row, each of them with letters, the value
is the sum of the two values unless the last letter of the first and the first letter of the second
are a subtractive pair and the reader of the first numeral takes its last letter alone. -/
theorem decode_append_eq_add_iff {a b : List Letter} (ha : a ≠ []) (hb : b ≠ [])
    (hlength : a.length + b.length ≤ 9223372036854775) :
    ∃ m n total : Nat, decode (a.map Letter.toChar) = .ok m ∧ decode (b.map Letter.toChar) = .ok n ∧
      decode ((a ++ b).map Letter.toChar) = .ok total ∧
      (total = m + n ↔
        ¬ ((pairValue? (a.getLast ha) (b.head hb)).isSome ∧
          (signs a).getLast? = some (.ofLetter (a.getLast ha)))) :=
  ⟨value a, value b, value (a ++ b), decode_map_toChar_of_length_le (by omega),
    decode_map_toChar_of_length_le (by omega),
    decode_map_toChar_of_length_le (by rwa [List.length_append]), value_append_eq_add_iff ha hb⟩

/-- Behind `I` all of `XCM` is cut anew, while `L` behind `IX` finds the `X` taken. -/
theorem decode_append_eq_add_iff_overlap :
    (∃ m n total : Nat, decode "I".toList = .ok m ∧ decode "XCM".toList = .ok n ∧
      decode "IXCM".toList = .ok total ∧ total ≠ m + n) ∧
    ∃ m n total : Nat, decode "IX".toList = .ok m ∧ decode "L".toList = .ok n ∧
      decode "IXL".toList = .ok total ∧ total = m + n := by
  constructor
  · obtain ⟨m, n, total, hm, hn, htotal, hiff⟩ :=
      decode_append_eq_add_iff (a := [.i]) (b := [.x, .c, .m]) (by decide) (by decide) (by decide)
    exact ⟨m, n, total, hm, hn, htotal, fun hsum => hiff.1 hsum (by decide)⟩
  · obtain ⟨m, n, total, hm, hn, htotal, hiff⟩ :=
      decode_append_eq_add_iff (a := [.i, .x]) (b := [.l]) (by decide) (by decide) (by decide)
    exact ⟨m, n, total, hm, hn, htotal, hiff.2 (by decide)⟩

end RomanInvoice.Roman
