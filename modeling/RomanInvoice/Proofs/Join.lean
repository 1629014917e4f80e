import RomanInvoice.Proofs.Grammar

/-!
# Joins — expressions one after the other

Two expressions with an operator between them are an expression again: the operator takes the first
number of the second one for its own, and what follows is added to the sum as it stands. So the
partial totals of the second expression all move by one and the same amount, and whether the whole
has a total is a question of where they come to lie. The argument is on derivations, where a join
is an append (`Derivation.join`), and knows nothing of the scanner.
-/

namespace RomanInvoice

namespace Formula

/-- A formula, an operator, and another formula behind it. -/
def join (a : Formula) (op : Operator) (b : Formula) : Formula :=
  ⟨a.first, a.rest ++ ⟨op, b.first⟩ :: b.rest⟩

/-- The total of a formula, its last partial one. -/
def total (formula : Formula) : Int :=
  formula.rest.foldl Summand.addTo formula.first.value

/-- By how much an operator behind a sum moves the partial totals of the formula it stands
before. -/
def shift (sum : Int) (op : Operator) (formula : Formula) : Int :=
  match op with
  | .plus => sum
  | .minus => sum - 2 * formula.first.value

variable {a b : Formula} {op : Operator}

theorem getLast?_partials (formula : Formula) :
    formula.partials.getLast? = some formula.total := by
  rw [partials, List.getLast?_scanl, total]

theorem numbers_join : (a.join op b).numbers = a.numbers ++ b.numbers := by
  simp [join, numbers]

theorem length_lexemes_join :
    (a.join op b).lexemes.length = a.lexemes.length + b.lexemes.length + 1 := by
  simp only [lexemes, join, List.length_cons, Summand.length_flatMap_lexemes, List.length_append]
  omega

end Formula

theorem Summand.addTo_add (sum d : Int) (summand : Summand) :
    summand.addTo (sum + d) = summand.addTo sum + d := by
  obtain ⟨op, number⟩ := summand
  cases op <;> simp only [addTo] <;> omega

/-- A sum that begins higher is as much higher throughout. -/
theorem Summand.scanl_addTo_add (sum d : Int) (rest : List Summand) :
    rest.scanl addTo (sum + d) = (rest.scanl addTo sum).map (· + d) := by
  induction rest generalizing sum with
  | nil => rfl
  | cons summand rest ih => rw [List.scanl_cons, List.scanl_cons, addTo_add, ih, List.map_cons]

theorem Formula.partials_join (a : Formula) (op : Operator) (b : Formula) :
    (a.join op b).partials = a.partials ++ b.partials.map (· + b.shift a.total op) := by
  have hfirst : (⟨op, b.first⟩ : Summand).addTo a.total =
      b.first.value + b.shift a.total op := by
    cases op <;> simp only [Summand.addTo, shift] <;> omega
  have htotal : a.rest.foldl Summand.addTo a.first.value = a.total := rfl
  rw [partials, join, List.scanl_append, htotal, List.scanl_cons, List.tail_cons, hfirst,
    Summand.scanl_addTo_add]
  rfl

theorem Formula.total_join (a : Formula) (op : Operator) (b : Formula) :
    (a.join op b).total = b.total + b.shift a.total op := by
  have hlast := (a.join op b).getLast?_partials
  rw [partials_join, List.getLast?_append, List.getLast?_map, getLast?_partials] at hlast
  exact (Option.some.inj hlast).symm

/-! ## Sound formulas -/

/-- A formula whose numbers and partial totals are amounts. -/
structure Formula.Sound (formula : Formula) : Prop where
  values : ∀ number ∈ formula.numbers, Amount.Fits number.value
  partials : ∀ p ∈ formula.partials, Amount.Fits p

/-- In a join of sound formulas only the sums behind the operator can be too much. -/
theorem Formula.Sound.join_iff {a b : Formula} (op : Operator) (ha : a.Sound) (hb : b.Sound) :
    (a.join op b).Sound ↔ ∀ p ∈ b.partials, Amount.Fits (p + b.shift a.total op) := by
  constructor
  · intro h p hp
    refine h.partials _ ?_
    rw [partials_join]
    exact List.mem_append_right _ (List.mem_map_of_mem hp)
  · intro h
    refine ⟨?_, ?_⟩
    · rw [numbers_join]
      exact List.forall_mem_append.2 ⟨ha.values, hb.values⟩
    · rw [partials_join]
      exact List.forall_mem_append.2 ⟨ha.partials, List.forall_mem_map.2 h⟩

/-! ## Derivations of joins -/

theorem Number.Spells.operand {run : Text} {number : Number} (h : number.Spells run) :
    Operand run number := by
  simpa using Operand.mk (List.forall_mem_nil _) h (List.forall_mem_nil _)

theorem Summands.append {s t : Text} {a b : List Summand} (ha : Summands s a)
    (hb : Summands t b) : Summands (s ++ t) (a ++ b) := by
  induction ha with
  | nil => exact hb
  | cons hoperand _ ih => simpa using Summands.cons hoperand ih

theorem Derivation.join {s t : Text} {a b : Formula} (op : Operator) (ha : Derivation s a)
    (hb : Derivation t b) : Derivation (s ++ op.toChar :: t) (a.join op b) := by
  cases ha with
  | mk hfirst hrest =>
    cases hb with
    | mk hoperand hsummands =>
      simpa [Formula.join] using Derivation.mk hfirst (hrest.append (.cons hoperand hsummands))

/-! ## Totals of joins -/

namespace Token

/-- Where every number has a value, only a sum can be too much. -/
theorem exists_overflow_of_totalFrom {rest : List Summand} {sum : Int} {tokens : List Token}
    (hlexemes : tokens.map lexeme = rest.flatMap Summand.lexemes)
    (hvalues : ∀ summand ∈ rest, Amount.Fits summand.number.value) (hsum : Amount.Fits sum)
    (h : ¬ ∀ p ∈ rest.scanl Summand.addTo sum, Amount.Fits p) :
    ∃ span, totalFrom sum tokens = .error (Fault.overflow.inSpan span) := by
  induction rest generalizing sum tokens with
  | nil => exact absurd (by simpa using hsum) h
  | cons summand rest ih =>
    obtain ⟨opSpan, span, tokens', rfl, hrest⟩ := exists_pair_of_summands hlexemes
    have hdecode := summand.number.decode_numeral
    rw [if_pos (hvalues summand (by simp))] at hdecode
    have hadd := Summand.addTo_eq_apply sum summand
    by_cases hnext : Amount.Fits (summand.addTo sum)
    · rw [totalFrom_of_fits hdecode (hadd ▸ hnext), ← hadd]
      refine ih hrest (fun other hother => hvalues other (by simp [hother])) hnext ?_
      intro hall
      refine h ?_
      rw [List.scanl_cons]
      exact List.forall_mem_cons.2 ⟨hsum, hall⟩
    · exact ⟨_, totalFrom_of_overflow hdecode (hadd ▸ hnext)⟩

section Total

variable {formula : Formula} {tokens : List Token} {t : Int}

theorem total_eq_ok_iff_sound (hlexemes : tokens.map lexeme = formula.lexemes) :
    total tokens = .ok t ↔ formula.Sound ∧ formula.total = t := by
  rw [total_eq_ok_iff hlexemes, formula.getLast?_partials, Option.some.injEq, ← and_assoc]
  exact and_congr_left' ⟨fun h => ⟨h.1, h.2⟩, fun h => ⟨h.values, h.partials⟩⟩

theorem exists_overflow_of_total (hlexemes : tokens.map lexeme = formula.lexemes)
    (hvalues : ∀ number ∈ formula.numbers, Amount.Fits number.value) (h : ¬ formula.Sound) :
    ∃ span, total tokens = .error (Fault.overflow.inSpan span) := by
  obtain ⟨span, tokens', rfl, hrest⟩ := exists_first_of_formula hlexemes
  have hdecode := formula.first.decode_numeral
  have hfirst := hvalues formula.first (by simp [Formula.numbers])
  rw [if_pos hfirst] at hdecode
  rw [total_of_ok hdecode]
  refine exists_overflow_of_totalFrom hrest ?_ hfirst fun hpartials => h ⟨hvalues, hpartials⟩
  intro summand hsummand
  exact hvalues summand.number (List.mem_cons_of_mem _ (List.mem_map_of_mem hsummand))

end Total

end Token

namespace Expression

variable {limits : Limits} {text : Text} {formula : Formula} {ts : List Token} {t : Int}

/-- An expression with a total says what a sound formula says. -/
theorem exists_sound_formula (ht : total limits text = .ok t) (hts : tokens limits text = .ok ts) :
    ∃ formula : Formula, Derivation text formula ∧ ts.map Token.lexeme = formula.lexemes ∧
      formula.Sound ∧ formula.total = t := by
  rw [total_of_tokens hts] at ht
  have htiling := Token.tiling_of_scanFrom (tokens_eq_ok_iff.1 hts).2.1
  obtain ⟨formula, hlexemes⟩ := htiling.exists_formula_of_total ht
  exact ⟨formula, Token.derivation_of_tiling htiling hlexemes, hlexemes,
    (Token.total_eq_ok_iff_sound hlexemes).1 ht⟩

theorem exists_tokens_of_derivation (h : Derivation text formula)
    (hlength : text.length ≤ limits.maxLength)
    (hcount : formula.lexemes.length ≤ limits.maxTokens) :
    ∃ ts, tokens limits text = .ok ts ∧ ts.map Token.lexeme = formula.lexemes := by
  obtain ⟨ts, htiling, hlexemes⟩ := Token.exists_tiling_of_derivation h
  refine ⟨ts, tokens_of_scan_ok hlength (Token.scanFrom_of_tiling htiling) ?_ ?_, hlexemes⟩
  · rintro rfl
    cases hlexemes
  · rwa [← hlexemes, List.length_map] at hcount

/-- The total of a join, as far as its formulas tell. -/
theorem total_of_join {a b : Text} {f g : Formula} (op : Operator) (hf : Derivation a f)
    (hg : Derivation b g) (hsound : f.Sound) (hsound' : g.Sound)
    (hlength : a.length + b.length + 1 ≤ limits.maxLength)
    (hcount : f.lexemes.length + g.lexemes.length + 1 ≤ limits.maxTokens) :
    ((∀ p ∈ g.partials, Amount.Fits (p + g.shift f.total op)) →
        total limits (a ++ op.toChar :: b) = .ok (g.total + g.shift f.total op)) ∧
      ((¬ ∀ p ∈ g.partials, Amount.Fits (p + g.shift f.total op)) →
        ∃ span, total limits (a ++ op.toChar :: b) = .error (Fault.overflow.inSpan span)) := by
  have hlength' : (a ++ op.toChar :: b).length ≤ limits.maxLength := by
    simpa [Nat.add_assoc] using hlength
  rw [← Formula.length_lexemes_join] at hcount
  obtain ⟨ts, hts, hlexemes⟩ := exists_tokens_of_derivation (hf.join op hg) hlength' hcount
  rw [total_of_tokens hts, ← hsound.join_iff op hsound']
  constructor
  · intro h
    exact (Token.total_eq_ok_iff_sound hlexemes).2 ⟨h, Formula.total_join f op g⟩
  · intro h
    refine Token.exists_overflow_of_total hlexemes ?_ h
    rw [Formula.numbers_join]
    exact List.forall_mem_append.2 ⟨hsound.values, hsound'.values⟩

/-- **Joins are added up from left to right**: behind a plus the partial totals of the second
expression move by the total of the first, and behind a minus by twice its first number less, since
the minus takes hold of that number alone. The join has its total if they all are amounts still, and
is too much otherwise. -/
theorem total_join_left_to_right {a b : Text} {x y : Int} {ts us : List Token}
    (hx : total limits a = .ok x) (hy : total limits b = .ok y)
    (hts : tokens limits a = .ok ts) (hus : tokens limits b = .ok us)
    (hlength : a.length + b.length + 1 ≤ limits.maxLength)
    (hcount : ts.length + us.length + 1 ≤ limits.maxTokens) :
    ∃ formula : Formula, ∃ y₁ : Int, Derivation b formula ∧
      formula.partials.head? = some y₁ ∧ formula.partials.getLast? = some y ∧
      ((∀ p ∈ formula.partials, Amount.Fits (x + p)) →
        total limits (a ++ '+' :: b) = .ok (x + y)) ∧
      ((¬ ∀ p ∈ formula.partials, Amount.Fits (x + p)) →
        ∃ span, total limits (a ++ '+' :: b) = .error (Fault.overflow.inSpan span)) ∧
      ((∀ p ∈ formula.partials, Amount.Fits (x + p - 2 * y₁)) →
        total limits (a ++ '-' :: b) = .ok (x + y - 2 * y₁)) ∧
      ((¬ ∀ p ∈ formula.partials, Amount.Fits (x + p - 2 * y₁)) →
        ∃ span, total limits (a ++ '-' :: b) = .error (Fault.overflow.inSpan span)) := by
  obtain ⟨f, hf, hflexemes, hfsound, rfl⟩ := exists_sound_formula hx hts
  obtain ⟨g, hg, hglexemes, hgsound, rfl⟩ := exists_sound_formula hy hus
  rw [← List.length_map Token.lexeme, hflexemes, ← List.length_map Token.lexeme,
    hglexemes] at hcount
  -- the shift of the partial totals, for each of the two operators
  have hjoin (op : Operator) := total_of_join op hf hg hfsound hgsound hlength hcount
  have hplus (p : Int) : p + g.shift f.total .plus = f.total + p := by
    simp only [Formula.shift]
    omega
  have hminus (p : Int) :
      p + g.shift f.total .minus = f.total + p - 2 * (g.first.value : Int) := by
    simp only [Formula.shift]
    omega
  have hadd := hjoin .plus
  have hsub := hjoin .minus
  simp only [hplus] at hadd
  simp only [hminus] at hsub
  exact ⟨g, g.first.value, hg, List.head?_scanl, g.getLast?_partials, hadd.1, hadd.2, hsub.1,
    hsub.2⟩

/-- The first sum behind the plus is too much, so it does not help that the last one would fit. -/
theorem total_join_past_greatest :
    total {} "9223372036854775806".toList = .ok 9223372036854775806 ∧
      total {} "2-1".toList = .ok 1 ∧
      (∃ span, total {} ("9223372036854775806".toList ++ '+' :: "2-1".toList) =
        .error (Fault.overflow.inSpan span)) ∧
      total {} ("9223372036854775806".toList ++ '-' :: "2-1".toList) =
        .ok 9223372036854775803 := by
  have hx : total {} "9223372036854775806".toList = .ok 9223372036854775806 := rfl
  have hy : total {} "2-1".toList = .ok 1 := rfl
  have htwo := Number.Spells.decimal ['2'] (by decide) (List.forall_mem_singleton.2 rfl)
  have hone := Number.Spells.decimal ['1'] (by decide) (List.forall_mem_singleton.2 rfl)
  have hrest := @Summands.cons .minus _ _ _ _ hone.operand .nil
  have hb : Derivation "2-1".toList _ := .mk htwo.operand hrest
  obtain ⟨formula, y₁, hformula, hfirst, _, _, hplus, hminus, _⟩ :=
    total_join_left_to_right hx hy rfl rfl (by decide) (by decide)
  obtain rfl := hformula.unique hb
  cases hfirst
  exact ⟨hx, hy, hplus (by decide), hminus (by decide)⟩

end Expression

end RomanInvoice
