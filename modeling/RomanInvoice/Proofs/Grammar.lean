import RomanInvoice.Proofs.Limits
import RomanInvoice.Proofs.Total

/-!
# Grammar — the expressions that have a total

An expression is a number, followed by any number of signs with a number each, with blanks wherever
two of these meet and at both ends. `Derivation` is this grammar over characters; it knows neither
tokens nor spans. A text has at most one derivation (`Derivation.unique`), and
`Expression.total_eq_ok_iff_derivation` says for every text and all limits whether there is a total
and which.
-/

namespace RomanInvoice

/-- A sign and the number that it adds or takes away. -/
structure Summand where
  op : Operator
  number : Number

namespace Summand

/-- A sum with one more summand. -/
def addTo (sum : Int) : Summand → Int
  | ⟨.plus, number⟩ => sum + number.value
  | ⟨.minus, number⟩ => sum - number.value

def lexemes (summand : Summand) : List Lexeme :=
  [.operator summand.op, .numeral summand.number.numeral]

end Summand

/-- What an expression says: a first number and summands. -/
structure Formula where
  first : Number
  rest : List Summand

namespace Formula

/-- The numbers from left to right. -/
def numbers (formula : Formula) : List Number :=
  formula.first :: formula.rest.map Summand.number

/-- The exact partial totals: the first number, and the sum up to each further one. -/
def partials (formula : Formula) : List Int :=
  formula.rest.scanl Summand.addTo formula.first.value

def lexemes (formula : Formula) : List Lexeme :=
  .numeral formula.first.numeral :: formula.rest.flatMap Summand.lexemes

end Formula

/-! ## The grammar -/

/-- A number with blanks around it. -/
inductive Operand : Text → Number → Prop where
  | mk {before run after : Text} {number : Number} : (∀ c ∈ before, isBlank c) →
    number.Spells run → (∀ c ∈ after, isBlank c) → Operand (before ++ (run ++ after)) number

/-- Any number of signs with an operand behind each. -/
inductive Summands : Text → List Summand → Prop where
  | nil : Summands [] []
  | cons {op : Operator} {number : Number} {operand text : Text} {rest : List Summand} :
    Operand operand number → Summands text rest →
    Summands (op.toChar :: (operand ++ text)) (⟨op, number⟩ :: rest)

/-- `Derivation text formula`: the text is an expression that says what the formula says. -/
inductive Derivation : Text → Formula → Prop where
  | mk {operand text : Text} {first : Number} {rest : List Summand} :
    Operand operand first → Summands text rest → Derivation (operand ++ text) ⟨first, rest⟩

/-- A sum with one more summand is what the operator of that summand gives. -/
theorem Summand.addTo_eq_apply (sum : Int) (summand : Summand) :
    summand.addTo sum = summand.op.apply sum summand.number.value := by
  obtain ⟨op, number⟩ := summand
  cases op <;> rfl

/-! ## The lexemes of a formula -/

theorem Summand.flatMap_lexemes_injective {a b : List Summand}
    (h : a.flatMap lexemes = b.flatMap lexemes) : a = b := by
  induction a generalizing b with
  | nil =>
    cases b with
    | nil => rfl
    | cons summand b => cases h
  | cons summand a ih =>
    cases b with
    | nil => cases h
    | cons summand' b =>
      obtain ⟨op, number⟩ := summand
      obtain ⟨op', number'⟩ := summand'
      simp only [List.flatMap_cons, lexemes, List.cons_append, List.nil_append, List.cons.injEq,
        Lexeme.operator.injEq, Lexeme.numeral.injEq] at h
      obtain ⟨rfl, hnumeral, hrest⟩ := h
      rw [Number.numeral_injective hnumeral, ih hrest]

theorem Formula.lexemes_injective {a b : Formula} (h : a.lexemes = b.lexemes) : a = b := by
  obtain ⟨first, rest⟩ := a
  obtain ⟨first', rest'⟩ := b
  simp only [lexemes, List.cons.injEq, Lexeme.numeral.injEq] at h
  rw [Number.numeral_injective h.1, Summand.flatMap_lexemes_injective h.2]

theorem Summand.length_flatMap_lexemes (rest : List Summand) :
    (rest.flatMap lexemes).length = 2 * rest.length := by
  induction rest with
  | nil => rfl
  | cons summand rest ih =>
    rw [List.flatMap_cons, List.length_append, ih, List.length_cons]
    simp only [lexemes, List.length_cons, List.length_nil]
    omega

/-- Between the numbers of a formula stand the operators, one fewer. -/
theorem Formula.length_lexemes (formula : Formula) :
    formula.lexemes.length = 2 * formula.numbers.length - 1 := by
  simp only [lexemes, numbers, List.length_cons, Summand.length_flatMap_lexemes, List.length_map]
  omega

namespace Token

/-! ## Tokens with the lexemes of a formula -/

section Shape

variable {tokens : List Token}

theorem exists_pair_of_summands {summand : Summand} {rest : List Summand}
    (h : tokens.map lexeme = (summand :: rest).flatMap Summand.lexemes) :
    ∃ opSpan span tokens', tokens =
        ⟨.operator summand.op, opSpan⟩ :: ⟨.numeral summand.number.numeral, span⟩ :: tokens' ∧
      tokens'.map lexeme = rest.flatMap Summand.lexemes := by
  obtain ⟨⟨_, opSpan⟩, behind, rfl, hop, hbehind⟩ := List.map_eq_cons_iff.1 h
  obtain ⟨⟨_, span⟩, tokens', rfl, hnumeral, hrest⟩ := List.map_eq_cons_iff.1 hbehind
  cases hop
  cases hnumeral
  exact ⟨opSpan, span, tokens', rfl, hrest⟩

theorem exists_first_of_formula {formula : Formula}
    (h : tokens.map lexeme = formula.lexemes) :
    ∃ span tokens', tokens = ⟨.numeral formula.first.numeral, span⟩ :: tokens' ∧
      tokens'.map lexeme = formula.rest.flatMap Summand.lexemes := by
  obtain ⟨⟨_, span⟩, tokens', rfl, hnumeral, hrest⟩ := List.map_eq_cons_iff.1 h
  cases hnumeral
  exact ⟨span, tokens', rfl, hrest⟩

theorem isOperator_of_summands {rest : List Summand}
    (h : tokens.map lexeme = rest.flatMap Summand.lexemes) :
    ∀ next ∈ tokens.head?, next.lexeme.isOperator := by
  intro next hnext
  cases rest with
  | nil =>
    obtain rfl : tokens = [] := by simpa using h
    cases hnext
  | cons summand rest =>
    obtain ⟨opSpan, span, tokens', rfl, _⟩ := exists_pair_of_summands h
    cases hnext
    rfl

end Shape

/-! ## From derivations to tokens -/

section Tiling

variable {start : Nat} {text : Text} {tokens : List Token}

/-- An operand before a text that begins with an operator is one more token. -/
theorem Tiling.operand {operand : Text} {number : Number} (hoperand : Operand operand number)
    (h : Tiling (start + operand.byteSize) text tokens)
    (hnext : ∀ next ∈ tokens.head?, next.lexeme.isOperator) :
    ∃ span, Tiling start (operand ++ text) (⟨.numeral number.numeral, span⟩ :: tokens) := by
  cases hoperand with
  | @mk before run after _ hbefore hspells hafter =>
    have hrest : Tiling (start + before.byteSize + run.byteSize) (after ++ text) tokens := by
      refine .blanks hafter ?_
      simpa [Nat.add_assoc] using h
    refine ⟨⟨start + before.byteSize, start + before.byteSize + run.byteSize⟩, ?_⟩
    rw [List.append_assoc, List.append_assoc]
    refine .blanks hbefore (.token (.number hspells) hrest ?_)
    intro next hmem
    rw [join?_eq_none_iff]
    intro _ b _ hb
    have hoperator := hnext next hmem
    rw [hb] at hoperator
    cases hoperator

theorem exists_tiling_of_summands {rest : List Summand} (h : Summands text rest) :
    ∃ tokens, Tiling start text tokens ∧ tokens.map lexeme = rest.flatMap Summand.lexemes := by
  induction h generalizing start with
  | nil => exact ⟨[], .nil start, rfl⟩
  | @cons op number operand text rest hoperand _ ih =>
    obtain ⟨tokens, htiling, hlexemes⟩ := @ih (start + op.toChar.utf8Size + operand.byteSize)
    obtain ⟨span, hnumber⟩ := htiling.operand hoperand (isOperator_of_summands hlexemes)
    have hop : Tiling start ([op.toChar] ++ (operand ++ text))
        (⟨.operator op, ⟨start, start + Text.byteSize [op.toChar]⟩⟩ ::
          ⟨.numeral number.numeral, span⟩ :: tokens) :=
      .token (.operator op) (by simpa using hnumber) fun _ _ => rfl
    exact ⟨_, hop, by simp [hlexemes, Summand.lexemes]⟩

theorem exists_tiling_of_derivation {formula : Formula} (h : Derivation text formula) :
    ∃ tokens, Tiling 0 text tokens ∧ tokens.map lexeme = formula.lexemes := by
  cases h with
  | mk hoperand hsummands =>
    obtain ⟨tokens, htiling, hlexemes⟩ := exists_tiling_of_summands hsummands
    obtain ⟨span, hnumber⟩ := htiling.operand hoperand (isOperator_of_summands hlexemes)
    exact ⟨_, hnumber, by simp [hlexemes, Formula.lexemes]⟩

/-! ## From tokens to derivations -/

/-- The rest of a formula is found behind the blanks that belong to the number before it. -/
theorem Tiling.exists_summands {rest : List Summand} (h : Tiling start text tokens)
    (hlexemes : tokens.map lexeme = rest.flatMap Summand.lexemes) :
    ∃ before behind : Text, text = before ++ behind ∧ (∀ c ∈ before, isBlank c) ∧
      Summands behind rest := by
  induction rest generalizing start text tokens with
  | nil =>
    obtain rfl : tokens = [] := by simpa using hlexemes
    exact ⟨text, [], by simp, Tiling.nil_iff.1 h, .nil⟩
  | cons summand rest ih =>
    -- blanks are split off in front of a token, but those behind a number are its own
    obtain ⟨opSpan, span, tokens', rfl, hrest⟩ := exists_pair_of_summands hlexemes
    obtain ⟨before, opRun, text, rfl, hbefore, hop, _, h⟩ := h.exists_split
    obtain ⟨between, run, text, rfl, hbetween, hspells, _, h⟩ := h.exists_split
    obtain ⟨after, behind, rfl, hafter, hsummands⟩ := ih h hrest
    have hoperand : Operand (between ++ (run ++ after)) summand.number :=
      .mk hbetween hspells.number_spells hafter
    cases hop
    exact ⟨before, summand.op.toChar :: (between ++ (run ++ after) ++ behind), by simp, hbefore,
      .cons hoperand hsummands⟩

theorem derivation_of_tiling {formula : Formula} (h : Tiling start text tokens)
    (hlexemes : tokens.map lexeme = formula.lexemes) : Derivation text formula := by
  obtain ⟨span, tokens', rfl, hrest⟩ := exists_first_of_formula hlexemes
  obtain ⟨before, run, text, rfl, hbefore, hspells, _, h⟩ := h.exists_split
  obtain ⟨after, behind, rfl, hafter, hsummands⟩ := h.exists_summands hrest
  have hderivation : Derivation (before ++ (run ++ after) ++ behind) formula :=
    .mk (.mk hbefore hspells.number_spells hafter) hsummands
  simpa using hderivation

end Tiling

end Token

/-- **The grammar is unambiguous.** -/
theorem Derivation.unique {text : Text} {a b : Formula} (ha : Derivation text a)
    (hb : Derivation text b) : a = b := by
  obtain ⟨tokens, htiling, hlexemes⟩ := Token.exists_tiling_of_derivation ha
  obtain ⟨tokens', htiling', hlexemes'⟩ := Token.exists_tiling_of_derivation hb
  rw [← Token.scanFrom_eq_ok_iff] at htiling htiling'
  rw [htiling] at htiling'
  cases htiling'
  exact Formula.lexemes_injective (hlexemes.symm.trans hlexemes')

namespace Token

/-! ## The total of a formula -/

section Total

variable {tokens : List Token} {t : Int}

/-- Adding up summands succeeds if the values and the partial sums are amounts. -/
theorem totalFrom_eq_ok_iff {rest : List Summand} {sum : Int} (hsum : Amount.Fits sum)
    (hlexemes : tokens.map lexeme = rest.flatMap Summand.lexemes) :
    totalFrom sum tokens = .ok t ↔
      (∀ summand ∈ rest, Amount.Fits summand.number.value) ∧
        (∀ p ∈ rest.scanl Summand.addTo sum, Amount.Fits p) ∧
        (rest.scanl Summand.addTo sum).getLast? = some t := by
  induction rest generalizing sum tokens with
  | nil =>
    obtain rfl : tokens = [] := by simpa using hlexemes
    simp [totalFrom, hsum]
  | cons summand rest ih =>
    obtain ⟨opSpan, span, tokens', rfl, hrest⟩ := exists_pair_of_summands hlexemes
    have hdecode := summand.number.decode_numeral
    have hadd := Summand.addTo_eq_apply sum summand
    by_cases hvalue : Amount.Fits summand.number.value
    · rw [if_pos hvalue] at hdecode
      by_cases hnext : Amount.Fits (summand.addTo sum)
      · rw [totalFrom_of_fits hdecode (hadd ▸ hnext), ← hadd, ih hnext hrest]
        simp [hvalue, hsum, List.getLast?_cons, List.getLast?_scanl]
      · rw [totalFrom_of_overflow hdecode (hadd ▸ hnext)]
        have hmem : summand.addTo sum ∈ (summand :: rest).scanl Summand.addTo sum := by
          rw [List.scanl_cons]
          exact List.mem_cons_of_mem _ (List.mem_of_mem_head? List.head?_scanl)
        constructor
        · intro h
          cases h
        · intro h
          exact absurd (h.2.1 _ hmem) hnext
    · rw [if_neg hvalue] at hdecode
      rw [totalFrom_of_error hdecode]
      constructor
      · intro h
        cases h
      · intro h
        exact absurd (h.1 summand (by simp)) hvalue

theorem total_eq_ok_iff {formula : Formula} (hlexemes : tokens.map lexeme = formula.lexemes) :
    total tokens = .ok t ↔
      (∀ number ∈ formula.numbers, Amount.Fits number.value) ∧
        (∀ p ∈ formula.partials, Amount.Fits p) ∧ formula.partials.getLast? = some t := by
  obtain ⟨span, tokens', rfl, hrest⟩ := exists_first_of_formula hlexemes
  have hdecode := formula.first.decode_numeral
  by_cases hvalue : Amount.Fits formula.first.value
  · rw [if_pos hvalue] at hdecode
    rw [total_of_ok hdecode, totalFrom_eq_ok_iff hvalue hrest]
    simp [Formula.numbers, Formula.partials, hvalue]
  · rw [if_neg hvalue] at hdecode
    rw [total_of_error hdecode]
    constructor
    · intro h
      cases h
    · intro h
      exact absurd (h.1 formula.first (by simp [Formula.numbers])) hvalue

/-- What it takes to get past an operator and a numeral. -/
theorem exists_value_of_totalFrom {op : Operator} {numeral : Numeral} {opSpan span : Span}
    {sum : Int}
    (h : totalFrom sum (⟨.operator op, opSpan⟩ :: ⟨.numeral numeral, span⟩ :: tokens) = .ok t) :
    ∃ value : Nat, totalFrom (op.apply sum value) tokens = .ok t := by
  cases hdecode : numeral.decode with
  | error fault =>
    rw [totalFrom_of_error hdecode] at h
    cases h
  | ok value =>
    by_cases hfits : Amount.Fits (op.apply sum value)
    · rw [totalFrom_of_fits hdecode hfits] at h
      exact ⟨value, h⟩
    · rw [totalFrom_of_overflow hdecode hfits] at h
      cases h

theorem Tiling.exists_summands_of_totalFrom {start : Nat} {text : Text} {sum : Int}
    (h : Tiling start text tokens) (htotal : totalFrom sum tokens = .ok t) :
    ∃ rest : List Summand, tokens.map lexeme = rest.flatMap Summand.lexemes := by
  fun_induction totalFrom sum tokens generalizing start text with
  | case1 sum => exact ⟨[], rfl⟩
  | case2 => cases htotal
  | case3 => cases htotal
  | case4 => cases htotal
  | case5 sum op opSpan numeral span tokens ih =>
    -- an operator and a numeral, the only way on; the tiling knows which number the numeral is
    obtain ⟨value, hrest⟩ := exists_value_of_totalFrom htotal
    obtain ⟨_, _, _, _, _, _, _, h⟩ := h.exists_split
    obtain ⟨_, _, _, _, _, hspells, _, h⟩ := h.exists_split
    obtain ⟨rest, hlexemes⟩ := ih value h hrest
    obtain ⟨number, rfl, _⟩ := hspells.exists_number
    exact ⟨⟨op, number⟩ :: rest, by simp [hlexemes, Summand.lexemes]⟩

/-- Tokens of a text that have a total are those of a formula. -/
theorem Tiling.exists_formula_of_total {start : Nat} {text : Text}
    (h : Tiling start text tokens) (htotal : total tokens = .ok t) :
    ∃ formula : Formula, tokens.map lexeme = formula.lexemes := by
  match tokens with
  | [] => cases htotal
  | ⟨.operator _, _⟩ :: _ => cases htotal
  | ⟨.numeral numeral, span⟩ :: tokens =>
    obtain ⟨_, _, _, _, _, hspells, _, hrest⟩ := h.exists_split
    obtain ⟨first, rfl, _⟩ := hspells.exists_number
    cases hdecode : first.numeral.decode with
    | error fault =>
      rw [total_of_error hdecode] at htotal
      cases htotal
    | ok value =>
      rw [total_of_ok hdecode] at htotal
      obtain ⟨rest, hlexemes⟩ := hrest.exists_summands_of_totalFrom htotal
      exact ⟨⟨first, rest⟩, by simp [hlexemes, Formula.lexemes]⟩

end Total

end Token

namespace Expression

/-- **What has a total**: a text within the limits that the grammar derives, whose numbers and
exact partial totals are all of 64 bits with a sign; the total is the last partial one. -/
theorem total_eq_ok_iff_derivation (limits : Limits) (text : Text) (t : Int) :
    total limits text = .ok t ↔
      text.length ≤ limits.maxLength ∧
      ∃ formula, Derivation text formula ∧ (∀ other, Derivation text other → other = formula) ∧
        2 * formula.numbers.length - 1 ≤ limits.maxTokens ∧
        (∀ number ∈ formula.numbers, number.value ≤ 0x7fffffffffffffff) ∧
        (∀ sum ∈ formula.partials, -0x8000000000000000 ≤ sum ∧ sum ≤ 0x7fffffffffffffff) ∧
        formula.partials.getLast? = some t := by
  -- a value is never negative, so only its upper bound matters
  have hvalue (n : Nat) : n ≤ 0x7fffffffffffffff ↔ Amount.Fits n := by
    simp only [Amount.Fits, Amount.least, Amount.greatest]
    omega
  have hsum (sum : Int) : (-0x8000000000000000 ≤ sum ∧ sum ≤ 0x7fffffffffffffff) ↔
      Amount.Fits sum := Iff.rfl
  simp only [hvalue, hsum]
  constructor
  · intro h
    obtain ⟨ts, hts, ht⟩ := total_eq_ok_iff_tokens.1 h
    obtain ⟨hlength, hscan, _, hcount⟩ := tokens_eq_ok_iff.1 hts
    have htiling : Token.Tiling 0 text ts := Token.scanFrom_eq_ok_iff.1 hscan
    obtain ⟨formula, hlexemes⟩ := htiling.exists_formula_of_total ht
    have hderivation := Token.derivation_of_tiling htiling hlexemes
    rw [Token.total_eq_ok_iff hlexemes] at ht
    refine ⟨hlength, formula, hderivation, fun other hother => hother.unique hderivation, ?_, ht⟩
    rw [← formula.length_lexemes, ← hlexemes, List.length_map]
    exact hcount
  · intro h
    obtain ⟨hlength, formula, hderivation, _, hcount, ht⟩ := h
    obtain ⟨ts, htiling, hlexemes⟩ := Token.exists_tiling_of_derivation hderivation
    rw [← Token.total_eq_ok_iff hlexemes] at ht
    refine total_eq_ok_iff_tokens.2 ⟨ts, tokens_eq_ok_iff.2 ⟨hlength, ?_, ?_, ?_⟩, ht⟩
    · exact Token.scanFrom_eq_ok_iff.2 htiling
    · intro hnil
      subst hnil
      cases ht
    · rw [← formula.length_lexemes, ← hlexemes, List.length_map] at hcount
      exact hcount

end Expression

end RomanInvoice
