import RomanInvoice.Proofs.Glyph

/-!
# Numbers — runs of digits and runs of Roman letters

A `Numeral` is any script with any text. The numerals that a text can give rise to are narrower: a
`Number` carries a run that is not empty and that holds figures of its script alone, so its value
needs no check but the one for size (`Number.decode_numeral`). The reader of Roman letters makes
that check at every sign, which comes to the same (`Roman.decodeFrom_append`). `Number.Spells`
relates a number to the characters that may write it; Roman letters have several spellings, digits
only one.
-/

namespace RomanInvoice

namespace Roman

/-- The value of a run of letters, read from the left with pairs first; there is no bound to it. -/
def value : List Letter → Nat
  | [] => 0
  | [a] => a.value
  | a :: b :: letters =>
    match pairValue? a b with
    | some pair => pair + value letters
    | none => a.value + value (b :: letters)

/-- The capital Roman letters with which a text begins. -/
def leading : Text → List Letter
  | [] => []
  | c :: text =>
    match Letter.ofChar? c with
    | some a => a :: leading text
    | none => []

end Roman

/-- A number as an expression writes it. -/
inductive Number where
  | decimal (digits : Text) (nonempty : digits ≠ []) (digital : ∀ c ∈ digits, c.isDigit)
  | roman (letters : List Roman.Letter) (nonempty : letters ≠ [])

namespace Number

/-- What a number is worth; there is no bound to it. -/
def value : Number → Nat
  | decimal digits _ _ => Decimal.value digits
  | roman letters _ => Roman.value letters

/-- The numeral that stands for a number in a token. -/
def numeral : Number → Numeral
  | decimal digits _ _ => ⟨.digits, digits⟩
  | roman letters _ => ⟨.roman, letters.map Roman.Letter.toChar⟩

/-- What is wrong with a number whose value is no amount. -/
def fault : Number → Fault
  | decimal digits _ _ => .badNumeral digits
  | roman _ _ => .overflow

/-- The runs of characters that write a number. -/
inductive Spells : Text → Number → Prop where
  | decimal (digits : Text) (nonempty : digits ≠ []) (digital : ∀ c ∈ digits, c.isDigit) :
    Spells digits (.decimal digits nonempty digital)
  | roman {run : Text} {letters : List Roman.Letter} (nonempty : letters ≠ []) :
    run.map Roman.Letter.ofSpelling? = letters.map some → Spells run (.roman letters nonempty)

end Number

/-! ## The value of a number -/

/-- A number without a sign is an amount up to the greatest one. -/
theorem Amount.fits_natCast_iff {n : Nat} : Fits n ↔ (n : Int) ≤ greatest := by
  refine ⟨fun h => h.2, fun h => ⟨?_, h⟩⟩
  unfold least
  omega

theorem Roman.isCapital_toChar (letter : Roman.Letter) : Roman.isCapital letter.toChar := by
  simp [isCapital]

theorem Roman.Letter.ofChar?_eq_some_iff {c : Char} {letter : Letter} :
    ofChar? c = some letter ↔ c = letter.toChar := by
  constructor
  · intro h
    unfold ofChar? at h
    split at h <;> simp_all <;> subst h <;> rfl
  · rintro rfl
    exact ofChar?_toChar letter

theorem Roman.isCapital_iff {c : Char} : isCapital c ↔ ∃ letter : Letter, c = letter.toChar := by
  rw [isCapital, Option.isSome_iff_exists]
  exact exists_congr fun _ => Letter.ofChar?_eq_some_iff

theorem Roman.not_isCapital_iff {c : Char} :
    ¬ isCapital c ↔ ∀ letter : Letter, c ≠ letter.toChar := by
  rw [isCapital_iff, not_exists]

theorem Roman.Letter.ofChar?_of_not_isCapital {c : Char} (h : ¬ isCapital c) :
    ofChar? c = none := by
  simpa [isCapital] using h

theorem Roman.capital?_of_isCapital {c : Char} (h : isCapital c) : capital? c = some c := by
  obtain ⟨letter, rfl⟩ := isCapital_iff.1 h
  simp [capital?]

theorem Roman.leading_map_toChar (letters : List Roman.Letter) :
    leading (letters.map Letter.toChar) = letters := by
  induction letters with
  | nil => rfl
  | cons letter letters ih => simp [leading, ih]

/-- Every text begins with a run of letters, which may be empty. -/
theorem Roman.exists_letters_append (text : Text) :
    ∃ (letters : List Letter) (rest : Text), text = letters.map Letter.toChar ++ rest ∧
      ∀ c ∈ rest.head?, ¬ isCapital c := by
  induction text with
  | nil => exact ⟨[], [], rfl, by simp⟩
  | cons c text ih =>
    by_cases hc : isCapital c
    · obtain ⟨letter, rfl⟩ := isCapital_iff.1 hc
      obtain ⟨letters, rest, rfl, hrest⟩ := ih
      exact ⟨letter :: letters, rest, rfl, hrest⟩
    · exact ⟨[], c :: text, rfl, by simpa using hc⟩

theorem Roman.exists_letters_of_forall {text : Text} (h : ∀ c ∈ text, isCapital c) :
    ∃ letters : List Letter, text = letters.map Letter.toChar := by
  obtain ⟨letters, rest, rfl, hrest⟩ := exists_letters_append text
  cases rest with
  | nil => exact ⟨letters, List.append_nil _⟩
  | cons c rest => exact absurd (h c (by simp)) (hrest c rfl)

/-! ## Letters added up one by one -/

/-- A number up to an amount is an amount. -/
theorem Amount.fits_of_le {m n : Nat} (h : m ≤ n) (hn : Fits n) : Fits m :=
  fits_natCast_iff.2 (Int.le_trans (Int.ofNat_le.2 h) (fits_natCast_iff.1 hn))

namespace Roman

section Steps

variable {sum n : Nat} {a b : Letter} {text rest : Text} {c d : Char}

theorem pairOf?_toChar : pairOf? a.toChar b.toChar = pairValue? a b := by
  simp [pairOf?]

theorem pairOf?_of_not_isCapital (h : ¬ isCapital d) : pairOf? c d = none := by
  simp [pairOf?, Letter.ofChar?_of_not_isCapital h]

theorem letterValue_toChar : letterValue a.toChar = .ok a.value := by
  rw [letterValue, Letter.ofChar?_toChar]

theorem letterValue_of_not_isCapital (h : ¬ isCapital c) :
    letterValue c = .error (.badRomanLetter c) := by
  rw [letterValue, Letter.ofChar?_of_not_isCapital h]

/-- A character that is no letter is the end, whatever stands behind it. -/
theorem decodeFrom_stop (h : ∀ c ∈ rest.head?, ¬ isCapital c) :
    decodeFrom sum rest =
      match rest with
      | [] => .ok sum
      | c :: _ => .error (.badRomanLetter c) := by
  match rest with
  | [] => rfl
  | [c] =>
    rw [decodeFrom, letterValue_of_not_isCapital (h c rfl)]
    rfl
  | c :: d :: text =>
    have hpair : pairOf? c d = none := by
      simp [pairOf?, Letter.ofChar?_of_not_isCapital (h c rfl)]
    rw [decodeFrom, hpair, letterValue_of_not_isCapital (h c rfl)]
    rfl

theorem add_bind {next : Nat → Except Fault Nat} :
    (add sum n >>= next) =
      if Amount.Fits (sum + n : Nat) then next (sum + n) else .error .overflow := by
  unfold add
  split <;> rfl

/-- Two letters that make a pair are taken together. -/
theorem decodeFrom_pair (h : pairValue? a b = some n) :
    decodeFrom sum (a.toChar :: b.toChar :: text) =
      if Amount.Fits (sum + n : Nat) then decodeFrom (sum + n) text
      else .error .overflow := by
  rw [decodeFrom, pairOf?_toChar, h]
  exact add_bind

/-- A letter that makes no pair with what is behind it is taken alone. -/
theorem decodeFrom_alone (h : ∀ d ∈ text.head?, pairOf? a.toChar d = none) :
    decodeFrom sum (a.toChar :: text) =
      if Amount.Fits (sum + a.value : Nat) then decodeFrom (sum + a.value) text
      else .error .overflow := by
  cases text with
  | nil =>
    show (letterValue a.toChar >>= add sum) = _
    rw [letterValue_toChar]
    rfl
  | cons d text =>
    rw [decodeFrom, h d rfl, letterValue_toChar]
    exact add_bind

/-- A check of a sum before a check of a greater one can be left out. -/
theorem ite_fits_add {m : Nat} {result : Except Fault Nat}
    (h : Amount.Fits (sum + m : Nat) → result =
      if Amount.Fits (sum + m + n : Nat) then decodeFrom (sum + m + n) rest
      else .error .overflow) :
    (if Amount.Fits (sum + m : Nat) then result else .error .overflow) =
      if Amount.Fits (sum + (m + n) : Nat) then decodeFrom (sum + (m + n)) rest
      else .error .overflow := by
  rw [← Nat.add_assoc]
  by_cases hfits : Amount.Fits (sum + m : Nat)
  · rw [if_pos hfits, h hfits]
  · rw [if_neg hfits, if_neg fun hmore => hfits (Amount.fits_of_le (Nat.le_add_right _ n) hmore)]

/-- Letters are added to a sum one sign after the other, which comes to a single check of them
all. -/
theorem decodeFrom_append (letters : List Letter) (hrest : ∀ c ∈ rest.head?, ¬ isCapital c)
    (hsum : Amount.Fits sum) :
    decodeFrom sum (letters.map Letter.toChar ++ rest) =
      if Amount.Fits (sum + value letters : Nat) then decodeFrom (sum + value letters) rest
      else .error .overflow := by
  -- the reader takes one letter or two, as the value does
  induction letters using value.induct generalizing sum with
  | case1 => exact (if_pos hsum).symm
  | case2 a => exact decodeFrom_alone fun d hd => pairOf?_of_not_isCapital (hrest d hd)
  | case3 a b letters pair hpair ih =>
    rw [value, hpair]
    exact (decodeFrom_pair hpair).trans (ite_fits_add ih)
  | case4 a b letters hnone ih =>
    have halone : ∀ d ∈ ((b :: letters).map Letter.toChar ++ rest).head?,
        pairOf? a.toChar d = none := by
      intro d hd
      cases hd
      exact pairOf?_toChar.trans hnone
    rw [value, hnone]
    exact (decodeFrom_alone halone).trans (ite_fits_add ih)

end Steps

end Roman

/-- Letters at the front of a text are at fault for their value only, and before what is behind
them. -/
theorem Roman.decode_append {rest : Text} (letters : List Roman.Letter)
    (h : ∀ c ∈ rest.head?, ¬ isCapital c) :
    decode (letters.map Letter.toChar ++ rest) =
      if Amount.Fits (value letters) then
        match rest with
        | [] => .ok (value letters)
        | c :: _ => .error (.badRomanLetter c)
      else
        .error .overflow := by
  rw [decode, decodeFrom_append letters h (by decide), decodeFrom_stop h, Nat.zero_add]

/-- The capitals of letters are never at fault for what they are, only for their value. -/
theorem Roman.decode_map_toChar (letters : List Roman.Letter) :
    decode (letters.map Letter.toChar) =
      if Amount.Fits (value letters) then .ok (value letters) else .error .overflow := by
  rw [← List.append_nil (letters.map _)]
  exact decode_append letters (by simp)

theorem Roman.isDigit_toChar (letter : Roman.Letter) : letter.toChar.isDigit = false :=
  Letter.isDigit_of_ofSpelling? (Letter.ofSpelling?_toChar letter)

/-! ## The value of letters -/

namespace Roman

section Letters

variable {a b : Letter} {letters : List Letter}

theorem Letter.one_le_value (letter : Letter) : 1 ≤ letter.value := by
  cases letter <;> decide

theorem Letter.value_le (letter : Letter) : letter.value ≤ 1000 := by
  cases letter <;> decide

/-- A pair counts for the difference of its letters, which is more than the first; and the second is
a multiple of the first. -/
theorem of_pairValue?_eq_some {pair : Nat} (h : pairValue? a b = some pair) :
    a.value < pair ∧ b.value = pair + a.value ∧ a.value ∣ b.value := by
  unfold pairValue? at h
  split at h <;> cases h <;> decide

/-- A letter in front of letters counts alone, unless it makes a pair with the first of them. -/
theorem value_cons (h : ∀ b ∈ letters.head?, pairValue? a b = none) :
    value (a :: letters) = a.value + value letters := by
  cases letters with
  | nil => rfl
  | cons b letters => rw [value, h b rfl]

/-- Each letter counts for at least one and for a thousand at most, be it alone or in a pair. -/
theorem value_bounds (letters : List Letter) :
    letters.length ≤ value letters ∧ value letters ≤ 1000 * letters.length := by
  induction letters using value.induct with
  | case1 => exact ⟨Nat.le_refl 0, Nat.le_refl 0⟩
  | case2 a => exact ⟨a.one_le_value, a.value_le⟩
  | case3 a b letters pair hpair ih =>
    have hone := a.one_le_value
    have hle := b.value_le
    obtain ⟨hlt, hdifference, _⟩ := of_pairValue?_eq_some hpair
    rw [value, hpair]
    simp only [List.length_cons]
    omega
  | case4 a b letters hnone ih =>
    have hone := a.one_le_value
    have hle := a.value_le
    rw [value, hnone]
    simp only [List.length_cons] at ih ⊢
    omega

end Letters

end Roman

namespace Number

/-- A number has its value if that is an amount, and is at fault otherwise. -/
theorem decode_numeral (number : Number) :
    number.numeral.decode =
      if Amount.Fits number.value then .ok number.value else .error number.fault := by
  cases number with
  | decimal digits nonempty digital =>
    have hall : digits.all Char.isDigit := by simpa using digital
    rw [Numeral.decode, numeral, if_neg nonempty, if_pos hall]
    rfl
  | roman letters nonempty =>
    have hcapital : (letters.map Roman.Letter.toChar).all Roman.isCapital := by
      simp [Roman.isCapital_toChar]
    have hdigit : ¬ (letters.map Roman.Letter.toChar).all Char.isDigit := by
      cases letters with
      | nil => exact absurd rfl nonempty
      | cons letter letters => simp [Roman.isDigit_toChar]
    rw [Numeral.decode, numeral, if_neg (by simpa using nonempty), if_neg hdigit,
      if_pos hcapital, Roman.decode_map_toChar]
    rfl

theorem numeral_injective {a b : Number} (h : a.numeral = b.numeral) : a = b := by
  cases a <;> cases b <;> simp only [numeral, Numeral.mk.injEq, reduceCtorEq, false_and] at h
  · obtain ⟨_, rfl⟩ := h
    rfl
  · obtain ⟨_, h⟩ := h
    have heq := congrArg Roman.leading h
    rw [Roman.leading_map_toChar, Roman.leading_map_toChar] at heq
    subst heq
    rfl

end Number

/-! ## The characters of a number -/

/-- The characters of a run and the characters that stand for them in a numeral of one script. -/
def Figures (script : Script) (run text : Text) : Prop :=
  run.map Glyph.ofChar? = text.map fun c => some (.figure script c)

namespace Figures

variable {script : Script} {run text : Text}

theorem nil_iff : Figures script [] text ↔ text = [] := by
  cases text <;> simp [Figures]

theorem cons_iff {c : Char} :
    Figures script (c :: run) text ↔
      ∃ d rest, text = d :: rest ∧ Glyph.ofChar? c = some (.figure script d) ∧
        Figures script run rest := by
  cases text with
  | nil => simp [Figures]
  | cons d rest =>
    constructor
    · intro h
      exact ⟨d, rest, rfl, by simpa [Figures] using h⟩
    · rintro ⟨_, _, heq, hc, hrun⟩
      cases heq
      simpa [Figures] using ⟨hc, hrun⟩

theorem digits_iff : Figures .digits run text ↔ (∀ c ∈ run, c.isDigit) ∧ text = run := by
  induction run generalizing text with
  | nil => simp [nil_iff]
  | cons c run ih =>
    rw [cons_iff]
    constructor
    · intro h
      obtain ⟨d, rest, rfl, hc, hrun⟩ := h
      obtain ⟨hdigit, rfl⟩ := Glyph.ofChar?_eq_digit_iff.1 hc
      obtain ⟨hall, rfl⟩ := ih.1 hrun
      exact ⟨by simpa [hdigit] using hall, rfl⟩
    · intro h
      obtain ⟨hall, rfl⟩ := h
      exact ⟨c, run, rfl, Glyph.ofChar?_of_isDigit (hall c (by simp)),
        ih.2 ⟨fun d hd => hall d (by simp [hd]), rfl⟩⟩

theorem roman_iff : Figures .roman run text ↔ run.map Roman.capital? = text.map some := by
  induction run generalizing text with
  | nil => cases text <;> simp [nil_iff]
  | cons c run ih =>
    rw [cons_iff]
    cases text with
    | nil => simp
    | cons d rest =>
      simp only [List.map_cons, List.cons.injEq, ← ih, ← Glyph.ofChar?_eq_roman_iff]
      constructor
      · intro h
        obtain ⟨_, _, ⟨rfl, rfl⟩, hc, hrun⟩ := h
        exact ⟨hc, hrun⟩
      · intro h
        exact ⟨d, rest, ⟨rfl, rfl⟩, h.1, h.2⟩

/-- The letters behind the capitals of a run. -/
theorem exists_letters (h : Figures .roman run text) :
    ∃ letters : List Roman.Letter, run.map Roman.Letter.ofSpelling? = letters.map some ∧
      text = letters.map Roman.Letter.toChar := by
  induction run generalizing text with
  | nil => exact ⟨[], rfl, nil_iff.1 h⟩
  | cons c run ih =>
    obtain ⟨d, rest, rfl, hc, hrun⟩ := cons_iff.1 h
    obtain ⟨letter, hletter, rfl⟩ := Option.map_eq_some_iff.1 (Glyph.ofChar?_eq_roman_iff.1 hc)
    obtain ⟨letters, hletters, rfl⟩ := ih hrun
    exact ⟨letter :: letters, by simp [hletter, hletters], rfl⟩

theorem isBlank_eq_false (h : Figures script run text) : ∀ c ∈ run, isBlank c = false := by
  induction run generalizing text with
  | nil => simp
  | cons c run ih =>
    obtain ⟨d, rest, rfl, hc, hrun⟩ := cons_iff.1 h
    intro x hx
    rcases List.mem_cons.1 hx with rfl | hx
    · cases hblank : isBlank x with
      | false => rfl
      | true => simp [Glyph.ofChar?_eq_blank_iff.2 hblank] at hc
    · exact ih hrun x hx

/-- All characters of a run are figures of its script. -/
theorem ofChar?_eq (h : Figures script run text) : ∀ c ∈ run, Script.ofChar? c = some script := by
  induction run generalizing text with
  | nil => simp
  | cons c run ih =>
    obtain ⟨d, rest, rfl, hc, hrun⟩ := cons_iff.1 h
    exact List.forall_mem_cons.2 ⟨Script.ofChar?_eq_some_iff.2 ⟨d, hc⟩, ih hrun⟩

theorem append {run' text' : Text} (h : Figures script run text)
    (h' : Figures script run' text') : Figures script (run ++ run') (text ++ text') := by
  rw [Figures, List.map_append, List.map_append, h, h']

/-- The figures of a numeral are the characters of its run, Roman letters as capitals. -/
theorem eq_map_capitalized (h : Figures script run text) : text = run.map Roman.capitalized := by
  induction run generalizing text with
  | nil => exact nil_iff.1 h
  | cons c run ih =>
    obtain ⟨d, rest, rfl, hc, hrun⟩ := cons_iff.1 h
    rw [Glyph.eq_capitalized hc, ih hrun, List.map_cons]

end Figures

namespace Number.Spells

variable {run : Text} {number : Number}

theorem ne_nil (h : Spells run number) : run ≠ [] := by
  cases h with
  | decimal nonempty digital => exact nonempty
  | roman nonempty hmap =>
    intro hrun
    subst hrun
    exact nonempty (by simpa using hmap.symm)

theorem figures (h : Spells run number) :
    Figures number.numeral.script run number.numeral.text := by
  cases h with
  | decimal nonempty digital => exact Figures.digits_iff.2 ⟨digital, rfl⟩
  | roman nonempty hmap =>
    refine Figures.roman_iff.2 ?_
    have hcapital := congrArg (List.map (Option.map Roman.Letter.toChar)) hmap
    rw [List.map_map, List.map_map] at hcapital
    exact hcapital.trans (by simp [numeral, Function.comp_def])

/-- A run of figures of one script writes a number. -/
theorem exists_of_figures {script : Script} {text : Text} (hne : run ≠ [])
    (h : Figures script run text) :
    ∃ number, Spells run number ∧ number.numeral = ⟨script, text⟩ := by
  cases script with
  | digits =>
    obtain ⟨hall, rfl⟩ := Figures.digits_iff.1 h
    exact ⟨_, .decimal _ hne hall, rfl⟩
  | roman =>
    obtain ⟨letters, hmap, rfl⟩ := h.exists_letters
    have hletters : letters ≠ [] := by
      intro heq
      subst heq
      exact hne (by simpa using hmap)
    exact ⟨_, .roman hletters hmap, rfl⟩

end Number.Spells

end RomanInvoice
