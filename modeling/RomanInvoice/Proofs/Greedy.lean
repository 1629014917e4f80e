import RomanInvoice.Proofs.NormalForm

/-!
# Greedy numerals — every amount can be written in letters

A number is written in Roman letters by taking, again and again, the greatest sign that does not
exceed what is left, where a sign is a letter or a subtractive pair. The letters do not show where
one sign ends and the next begins, and the reader finds the ends again by taking pairs first. That
the two agree rests on one fact (`Roman.pairValue?_eq_none_of_greatest?`): two letters that make a
pair where two signs meet would have been taken as that pair, which is greater than the first of
them. So a numeral is worth the number that it was made from, however many thousands lead it.
-/

namespace RomanInvoice

namespace Roman

/-! ## Signs -/

/-- What a greedy numeral is made of: a value, and the letters that count for it. -/
structure Sign where
  value : Nat
  letters : List Letter
  deriving DecidableEq, Repr

namespace Sign

/-- The signs, from the greatest to the least. -/
def all : List Sign :=
  [⟨1000, [.m]⟩, ⟨900, [.c, .m]⟩, ⟨500, [.d]⟩, ⟨400, [.c, .d]⟩, ⟨100, [.c]⟩, ⟨90, [.x, .c]⟩,
    ⟨50, [.l]⟩, ⟨40, [.x, .l]⟩, ⟨10, [.x]⟩, ⟨9, [.i, .x]⟩, ⟨5, [.v]⟩, ⟨4, [.i, .v]⟩, ⟨1, [.i]⟩]

/-- The greatest sign that does not exceed a number. -/
def greatest? (n : Nat) : Option Sign :=
  all.find? (·.value ≤ n)

variable {n : Nat} {sign other : Sign}

theorem pairwise_all : all.Pairwise fun a b => b.value < a.value := by
  decide

theorem value_pos (h : sign ∈ all) : 0 < sign.value := by
  have hall : ∀ sign ∈ all, 0 < sign.value := by decide
  exact hall sign h

/-- Each sign is a letter or a pair, and counts for as much as the reader counts it. -/
theorem letter_or_pair (h : sign ∈ all) :
    (∃ a, sign = ⟨a.value, [a]⟩) ∨
      ∃ a b pair, pairValue? a b = some pair ∧ sign = ⟨pair, [a, b]⟩ := by
  simp only [all, List.mem_cons, List.not_mem_nil, or_false] at h
  rcases h with rfl | rfl | rfl | rfl | rfl | rfl | rfl | rfl | rfl | rfl | rfl | rfl | rfl
  · exact .inl ⟨.m, rfl⟩
  · exact .inr ⟨.c, .m, _, rfl, rfl⟩
  · exact .inl ⟨.d, rfl⟩
  · exact .inr ⟨.c, .d, _, rfl, rfl⟩
  · exact .inl ⟨.c, rfl⟩
  · exact .inr ⟨.x, .c, _, rfl, rfl⟩
  · exact .inl ⟨.l, rfl⟩
  · exact .inr ⟨.x, .l, _, rfl, rfl⟩
  · exact .inl ⟨.x, rfl⟩
  · exact .inr ⟨.i, .x, _, rfl, rfl⟩
  · exact .inl ⟨.v, rfl⟩
  · exact .inr ⟨.i, .v, _, rfl, rfl⟩
  · exact .inl ⟨.i, rfl⟩

theorem greatest?_eq_none_iff : greatest? n = none ↔ n = 0 := by
  simp only [greatest?, List.find?_eq_none, decide_eq_true_eq, Nat.not_le]
  constructor
  · intro h
    have hone : n < 1 := h ⟨1, [.i]⟩ (by decide)
    omega
  · rintro rfl sign hsign
    exact value_pos hsign

theorem mem_of_greatest? (h : greatest? n = some sign) : sign ∈ all :=
  List.mem_of_find?_eq_some h

theorem value_le_of_greatest? (h : greatest? n = some sign) : sign.value ≤ n := by
  simpa using List.find?_some h

/-- The signs are looked through from the greatest on, so the one that is found deserves its
name. -/
theorem le_value_of_greatest? (h : greatest? n = some sign) (hother : other ∈ all)
    (hle : other.value ≤ n) : other.value ≤ sign.value := by
  obtain ⟨_, front, back, hall, hfront⟩ := List.find?_eq_some_iff_append.1 h
  have hpairwise := pairwise_all
  rw [hall] at hother hpairwise
  have hback := (List.pairwise_append.1 hpairwise).2.1
  rcases List.mem_append.1 hother with hmem | hmem
  · have hexceeds := hfront other hmem
    simp [hle] at hexceeds
  rcases List.mem_cons.1 hmem with rfl | hmem
  · exact Nat.le_refl _
  · exact Nat.le_of_lt (List.rel_of_pairwise_cons hback hmem)

end Sign

/-- A pair is a sign. -/
theorem Sign.mem_all_of_pair {a b : Letter} {pair : Nat} (h : pairValue? a b = some pair) :
    ⟨pair, [a, b]⟩ ∈ all := by
  unfold pairValue? at h
  split at h <;> cases h <;> decide

/-! ## Writing a number -/

/-- The numeral of a number: the greatest sign that does not exceed it, and the numeral of the
remainder. -/
def greedy (n : Nat) : List Letter :=
  match _h : Sign.greatest? n with
  | none => []
  | some sign => sign.letters ++ greedy (n - sign.value)
termination_by n
decreasing_by
  have hpos := Sign.value_pos (Sign.mem_of_greatest? _h)
  have hle := Sign.value_le_of_greatest? _h
  omega

/-- The characters of the numeral of a number. -/
def greedyText (n : Nat) : Text :=
  (greedy n).map Letter.toChar

section Greedy

variable {n : Nat} {sign : Sign} {a b : Letter}

theorem greedy_zero : greedy 0 = [] := by
  rw [greedy]
  rfl

theorem greedy_of_greatest? (h : Sign.greatest? n = some sign) :
    greedy n = sign.letters ++ greedy (n - sign.value) := by
  rw [greedy]
  split
  · next hnone =>
    rw [hnone] at h
    cases h
  · next other hother =>
    rw [hother] at h
    cases h
    rfl

/-- A numeral begins with a letter that does not exceed its number. -/
theorem value_head_greedy_le (h : b ∈ (greedy n).head?) : b.value ≤ n := by
  cases hsign : Sign.greatest? n with
  | none =>
    obtain rfl := Sign.greatest?_eq_none_iff.1 hsign
    rw [greedy_zero] at h
    cases h
  | some sign =>
    rw [greedy_of_greatest? hsign] at h
    have hle := Sign.value_le_of_greatest? hsign
    rcases Sign.letter_or_pair (Sign.mem_of_greatest? hsign) with
      ⟨a, rfl⟩ | ⟨a, _, pair, hpair, rfl⟩
    · cases h
      exact hle
    · cases h
      have hlt := (of_pairValue?_eq_some hpair).1
      simp only at hle
      omega

/-! ## Reading it again -/

/-- A letter that is taken as the greatest sign makes no pair with what is written behind it. -/
theorem pairValue?_eq_none_of_greatest? (h : Sign.greatest? n = some ⟨a.value, [a]⟩)
    (hb : b ∈ (greedy (n - a.value)).head?) : pairValue? a b = none := by
  cases hpair : pairValue? a b with
  | none => rfl
  | some pair =>
    obtain ⟨hlt, hdifference, _⟩ := of_pairValue?_eq_some hpair
    have hhead := value_head_greedy_le hb
    -- the pair would have been the greater sign
    have hle := Sign.le_value_of_greatest? h (Sign.mem_all_of_pair hpair) (by simp only; omega)
    simp only at hle
    omega

theorem value_append_greedy (h : Sign.greatest? n = some sign) :
    value (sign.letters ++ greedy (n - sign.value)) =
      sign.value + value (greedy (n - sign.value)) := by
  rcases Sign.letter_or_pair (Sign.mem_of_greatest? h) with ⟨a, rfl⟩ | ⟨a, b, pair, hpair, rfl⟩
  · exact value_cons fun b hb => pairValue?_eq_none_of_greatest? h hb
  · show value (a :: b :: greedy (n - pair)) = pair + value (greedy (n - pair))
    rw [value, hpair]

/-- **A greedy numeral is worth its number.** -/
theorem value_greedy (n : Nat) : value (greedy n) = n := by
  induction n using greedy.induct with
  | case1 n h =>
    obtain rfl := Sign.greatest?_eq_none_iff.1 h
    rw [greedy_zero]
    rfl
  | case2 n sign h ih =>
    have hle := Sign.value_le_of_greatest? h
    rw [greedy_of_greatest? h, value_append_greedy h, ih]
    omega

theorem greedy_ne_nil (h : 1 ≤ n) : greedy n ≠ [] := by
  intro hnil
  have hvalue := value_greedy n
  rw [hnil] at hvalue
  simp only [value] at hvalue
  omega

end Greedy

/-! ## Small letters -/

theorem Letter.eq_or_of_toUpper_eq {c : Char} {letter : Letter} (h : c.toUpper = letter.toChar) :
    c = letter.toChar ∨ c.toNat = letter.toChar.toNat + 32 := by
  unfold Char.toUpper at h
  split at h
  · next hsmall =>
    right
    rw [← h]
    simp only [Char.toNat, UInt32.le_iff_toNat_le, UInt32.toNat_add] at hsmall ⊢
    grind
  · exact .inl h

/-- A letter is spelled by its capital and by its small form. -/
theorem Letter.ofSpelling?_of_toUpper_eq {c : Char} {letter : Letter}
    (h : c.toUpper = letter.toChar) : ofSpelling? c = some letter := by
  rcases eq_or_of_toUpper_eq h with rfl | hsmall
  · exact ofSpelling?_toChar letter
  · have hc : c = Char.ofNat (letter.toChar.toNat + 32) := by rw [← hsmall, Char.ofNat_toNat]
    rw [hc]
    cases letter <;> rfl

theorem map_ofSpelling?_of_map_toUpper {text : Text} {letters : List Letter}
    (h : text.map Char.toUpper = letters.map Letter.toChar) :
    text.map Letter.ofSpelling? = letters.map some := by
  induction text generalizing letters with
  | nil =>
    obtain rfl : letters = [] := by simpa using h.symm
    rfl
  | cons c text ih =>
    obtain ⟨letter, letters, rfl, hletter, hrest⟩ := List.map_eq_cons_iff.1 h.symm
    rw [List.map_cons, List.map_cons, Letter.ofSpelling?_of_toUpper_eq hletter.symm, ih hrest.symm]

/-- The numeral of a number that is not zero is a number of an expression, in capital or small
letters. -/
theorem exists_number_of_greedy {n : Nat} (h : 1 ≤ n) :
    ∃ number : Number, number.numeral = ⟨.roman, greedyText n⟩ ∧ number.value = n ∧
      ∀ text : Text, text.map Char.toUpper = greedyText n → number.Spells text :=
  ⟨.roman (greedy n) (greedy_ne_nil h), rfl, value_greedy n,
    fun _ htext => .roman _ (map_ofSpelling?_of_map_toUpper htext)⟩

end Roman

namespace Expression

/-! ## A number alone -/

section Alone

variable {limits : Limits} {text : Text} {number : Number} {n : Nat}

theorem tokens_of_spells (h : number.Spells text) (hlength : text.length ≤ limits.maxLength)
    (hcount : 1 ≤ limits.maxTokens) :
    tokens limits text = .ok [⟨.numeral number.numeral, ⟨0, text.byteSize⟩⟩] := by
  have hscan : Token.scanFrom 0 (text ++ []) =
      .ok [⟨.numeral number.numeral, ⟨0, 0 + text.byteSize⟩⟩] :=
    Token.scanFrom_figures h.ne_nil h.figures rfl (by simp)
  rw [List.append_nil, Nat.zero_add] at hscan
  exact tokens_of_scan_ok hlength hscan (List.cons_ne_nil _ _) hcount

/-- A number that is an amount is an expression with itself as its total. -/
theorem reckon_of_spells (h : number.Spells text) (hfits : Amount.Fits number.value)
    (hlength : text.length ≤ limits.maxLength) (hcount : 1 ≤ limits.maxTokens) :
    reckon limits text = .ok ⟨text, number.numeral.text, number.value⟩ := by
  have hdecode := number.decode_numeral
  rw [if_pos hfits] at hdecode
  refine reckon_eq_ok_iff.2 ⟨_, _, tokens_of_spells h hlength hcount, Token.total_of_ok hdecode, ?_⟩
  simp [Token.normalForm, Lexeme.normalForm, Lexeme.text]

theorem total_of_reckon {reckoning : Reckoning} (h : reckon limits text = .ok reckoning) :
    total limits text = .ok reckoning.total := by
  obtain ⟨ts, t, hts, ht, rfl⟩ := reckon_eq_ok_iff.1 h
  exact total_eq_ok_iff_tokens.2 ⟨ts, hts, ht⟩

/-- **Every amount can be written in letters**: a number from one to the greatest amount is read
back from its greedy numeral, by itself, as a numeral of a token and as an expression. There the
letters may be capital or small, and the normal form has them as capitals. -/
theorem greedy_read_back (hpos : 1 ≤ n) (hgreatest : (n : Int) ≤ Amount.greatest) :
    Roman.decode (Roman.greedyText n) = .ok n ∧
      (∀ script, Numeral.decode ⟨script, Roman.greedyText n⟩ = .ok n) ∧
      ∀ (limits : Limits) (text : Text), 1 ≤ limits.maxTokens →
        (Roman.greedyText n).length ≤ limits.maxLength →
        text.map Char.toUpper = Roman.greedyText n →
        total limits text = .ok n ∧
          reckon limits text = .ok ⟨text, Roman.greedyText n, n⟩ := by
  have hfits : Amount.Fits n := Amount.fits_natCast_iff.2 hgreatest
  obtain ⟨number, hnumeral, hvalue, hspells⟩ := Roman.exists_number_of_greedy hpos
  refine ⟨?_, ?_, ?_⟩
  · rw [Roman.greedyText, Roman.decode_map_toChar, Roman.value_greedy, if_pos hfits]
  · intro script
    -- the script of a numeral has no part in its value
    show Numeral.decode ⟨.roman, Roman.greedyText n⟩ = .ok n
    rw [← hnumeral, number.decode_numeral, hvalue, if_pos hfits]
  · intro limits text hcount hlength hcase
    rw [← hcase, List.length_map] at hlength
    have hreckon := reckon_of_spells (hspells text hcase) (hvalue ▸ hfits) hlength hcount
    rw [hnumeral, hvalue] at hreckon
    exact ⟨total_of_reckon hreckon, hreckon⟩

/-- Past the numerals in common use, with small letters among the capitals. -/
theorem greedy_read_back_mixed_case :
    Roman.greedyText 4944 = "MMMMCMXLIV".toList ∧
      Roman.decode "MMMMCMXLIV".toList = .ok 4944 ∧
      total ⟨10, 1⟩ "mMMmcMXlIv".toList = .ok 4944 ∧
      reckon ⟨10, 1⟩ "mMMmcMXlIv".toList =
        .ok ⟨"mMMmcMXlIv".toList, "MMMMCMXLIV".toList, 4944⟩ := by
  have htext : Roman.greedyText 4944 = "MMMMCMXLIV".toList := by cbv
  obtain ⟨hdecode, _, hcases⟩ := greedy_read_back (n := 4944) (by decide) (by decide)
  rw [htext] at hdecode hcases
  obtain ⟨htotal, hreckon⟩ :=
    hcases ⟨10, 1⟩ "mMMmcMXlIv".toList (by decide) (by decide) (by decide)
  exact ⟨htext, hdecode, htotal, hreckon⟩

end Alone

end Expression

end RomanInvoice
