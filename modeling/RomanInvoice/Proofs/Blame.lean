import RomanInvoice.Proofs.MaximalMunch
import RomanInvoice.Proofs.Total
import RomanInvoice.Proofs.Utf8.Reader

/-!
# Blame — where a rejection points

The span of a rejection is made in one place and read in another, so it has to fit the text: it must
lie in it, on boundaries of characters, and hold what the fault is about. `Expression.Shows` lists
for each fault what that is. The tokens lead from the one to the other: each fault of a total lies
at a token, or at two that are neighbours, and a tiling knows what the text holds there.
-/

namespace RomanInvoice

/-- `Overflow text tokens span part`: a sum or a numeral of the tokens is too much, and the text
holds `part` where it stands. -/
inductive Token.Overflow (text : Text) (tokens : List Token) : Span → Text → Prop where
  /-- A Roman numeral that is no amount. -/
  | numeral {figures run : Text} {span : Span} :
    ⟨.numeral ⟨.roman, figures⟩, span⟩ ∈ tokens →
    Numeral.decode ⟨.roman, figures⟩ = .error .overflow → span.slice? text = some run →
    Overflow text tokens span run
  /-- A sum that is no amount, with its operator and the run of the number behind it. -/
  | sum {i value : Nat} {op : Operator} {numeral : Numeral} {opSpan span : Span}
    {gap run : Text} :
    tokens[i]? = some ⟨.operator op, opSpan⟩ → tokens[i + 1]? = some ⟨.numeral numeral, span⟩ →
    numeral.decode = .ok value → ¬ Amount.Fits (exactTotal (tokens.take (i + 2))) →
    (∀ c ∈ gap, isBlank c) → span.slice? text = some run →
    Overflow text tokens (opSpan.through span) (op.toChar :: (gap ++ run))

namespace Expression

/-- What the text holds in the span of each fault; a fault that no span goes with shows nothing. -/
def Shows (limits : Limits) (text : Text) (span : Span) (part : Text) : Fault → Prop
  | .illegalChar c => part = [c]
  | .empty => part = text
  | .tooManyTokens _ _ => ∃ ts front, Unlimited text ts ∧ text = front ++ part ∧
      ts[limits.maxTokens]?.map (·.span.start) = some front.byteSize
  | .badNumeral figures => part = figures
  | .leadingOperator | .trailingOperator | .doubledOperator => part = ['+'] ∨ part = ['-']
  | .operatorExpected found =>
      (∃ number : Number, number.Spells part) ∧ part.map Roman.capitalized = found
  | .overflow => ∃ ts, Unlimited text ts ∧ Token.Overflow text ts span part
  | .notText | .tooLong _ _ | .badRomanLetter _ => False

/-- A span of the text, on boundaries of characters, that shows a fault. -/
structure Blames (limits : Limits) (text : Text) (fault : Fault) (span : Span) : Prop where
  ordered : span.start ≤ span.stop
  inBounds : span.stop ≤ text.byteSize
  onBoundaries : (text.splitAtByte? span.start).isSome ∧ (text.splitAtByte? span.stop).isSome
  nonempty : text ≠ [] → span.start < span.stop
  shows : ∃ part, span.slice? text = some part ∧ Shows limits text span part fault

/-- A rejection that points where its fault is; only a length lies nowhere. -/
def Placed (limits : Limits) (text : Text) (rejection : Rejection) : Prop :=
  match rejection.span? with
  | none => ∃ length maxLength, rejection.fault = .tooLong length maxLength
  | some span => Blames limits text rejection.fault span

variable {limits : Limits} {text : Text} {fault : Fault}

theorem blames_of_cut {a part b : Text} {span : Span} (htext : text = a ++ part ++ b)
    (hspan : span = ⟨a.byteSize, (a ++ part).byteSize⟩) (hne : text ≠ [] → part ≠ [])
    (hshows : Shows limits text span part fault) : Blames limits text fault span where
  ordered := by simp [hspan]
  inBounds := by simp [hspan, htext]
  onBoundaries := by
    rw [hspan, htext, Text.splitAtByte?_append, List.append_assoc, Text.splitAtByte?_append]
    exact ⟨rfl, rfl⟩
  nonempty := by
    intro h
    have hpos := Text.byteSize_pos (hne h)
    simp only [hspan, Text.byteSize_append]
    omega
  shows := ⟨part, Span.slice?_eq_some_iff.2 ⟨a, b, htext, hspan⟩, hshows⟩

/-! ## Rejections of a text that is not read -/

theorem placed_of_tokens_error {rejection : Rejection}
    (h : tokens limits text = .error rejection) : Placed limits text rejection := by
  obtain ⟨result, hverdict⟩ := exists_verdict limits text
  obtain rfl := (tokens_eq_of_verdict hverdict).symm.trans h
  cases hverdict with
  | tooLong _ => exact ⟨_, _, rfl⟩
  | @illegal a b c _ htext _ _ =>
    have hcut : text = a ++ [c] ++ b := by simpa using htext
    exact blames_of_cut hcut (by simp) (fun _ => List.cons_ne_nil c []) rfl
  | empty _ _ =>
    exact blames_of_cut (a := []) (List.append_nil text).symm rfl id rfl
  | @tooMany ts _ hts hcount =>
    -- the first token over the limit begins a rest that goes on to the end
    have htiling := Token.tiling_of_scanFrom (unlimited_iff.1 hts).1
    obtain ⟨a, run, b, htext, hspells, hspan⟩ := htiling.exists_run _ (List.getElem_mem hcount)
    rw [List.append_assoc] at htext
    have hstart : ts[limits.maxTokens].span.start = a.byteSize := by rw [hspan, Nat.zero_add]
    have hcut : text = a ++ (run ++ b) ++ [] := by rw [htext, List.append_nil]
    refine blames_of_cut hcut ?_ ?_ ?_
    · rw [hstart, ← htext]
    · exact fun _ => List.append_ne_nil_of_left_ne_nil hspells.ne_nil b
    · exact ⟨ts, a, hts, htext, by rw [List.getElem?_eq_getElem hcount, Option.map_some, hstart]⟩

/-! ## Rejections of tokens -/

section Violation

variable {ts : List Token} {token : Token}

/-- A fault that is shown by the run of a token is placed in the span of the token. -/
theorem blames_of_token (htiling : Token.Tiling 0 text ts) (htoken : token ∈ ts)
    (hshows : ∀ run, token.lexeme.Spells run → token.span.slice? text = some run →
      Shows limits text token.span run fault) : Blames limits text fault token.span := by
  obtain ⟨a, run, b, htext, hspells, hspan⟩ := htiling.exists_run token htoken
  rw [Nat.zero_add, Nat.zero_add] at hspan
  have hslice := Span.slice?_eq_some_iff.2 ⟨a, b, htext, hspan⟩
  exact blames_of_cut htext hspan (fun _ => hspells.ne_nil) (hshows run hspells hslice)

theorem eq_of_spells_operator {op : Operator} {run : Text}
    (h : (Lexeme.operator op).Spells run) : run = ['+'] ∨ run = ['-'] := by
  cases h
  cases op with
  | plus => exact .inl rfl
  | minus => exact .inr rfl

/-- A numeral without value is a run of digits that is shown as it is, or a Roman one that is too
much. -/
theorem shows_of_decode_error {numeral : Numeral} {span : Span} {run : Text}
    (hts : Unlimited text ts) (htoken : ⟨.numeral numeral, span⟩ ∈ ts)
    (hdecode : numeral.decode = .error fault) (hspells : (Lexeme.numeral numeral).Spells run)
    (hslice : span.slice? text = some run) : Shows limits text span run fault := by
  obtain ⟨number, rfl, hnumber⟩ := hspells.exists_number
  have hvalue := number.decode_numeral
  rw [hdecode] at hvalue
  split at hvalue
  · cases hvalue
  · cases hvalue
    cases hnumber with
    | decimal nonempty digital => exact rfl
    | roman nonempty hmap => exact ⟨ts, hts, .numeral htoken hdecode hslice⟩

/-- A sum that is too much is shown by its operator and the number behind it. -/
theorem blames_of_sum {i value : Nat} {op : Operator} {numeral : Numeral} {opSpan span : Span}
    (hts : Unlimited text ts) (hop : ts[i]? = some ⟨.operator op, opSpan⟩)
    (hnumeral : ts[i + 1]? = some ⟨.numeral numeral, span⟩) (hdecode : numeral.decode = .ok value)
    (hsum : ¬ Amount.Fits (Token.exactTotal (ts.take (i + 2)))) :
    Blames limits text .overflow (opSpan.through span) := by
  have htiling := Token.tiling_of_scanFrom (unlimited_iff.1 hts).1
  rw [← List.take_append_drop i ts, Token.drop_eq_cons hop, Token.drop_eq_cons hnumeral] at htiling
  obtain ⟨before, run, gap, run', rest, htext, hrun, hgap, hrun', hstart, hspan⟩ :=
    htiling.exists_gap
  simp only [Nat.zero_add] at hstart hspan
  cases hrun
  have hslice : span.slice? text = some run' :=
    Span.slice?_eq_some_iff.2 ⟨before ++ (op.toChar :: gap), rest, by simp [htext], by simp [hspan]⟩
  have hcut : text = before ++ (op.toChar :: (gap ++ run')) ++ rest := by simpa using htext
  refine blames_of_cut hcut ?_ (fun _ => List.cons_ne_nil _ _)
    ⟨ts, hts, .sum hop hnumeral hdecode hsum hgap hslice⟩
  rw [Span.through, hstart, hspan]
  simp

theorem placed_of_violation {i : Nat} {rejection : Rejection} (hts : Unlimited text ts)
    (h : Token.Violation ts i rejection) (hbefore : Token.OrderlyBefore ts i) :
    Placed limits text rejection := by
  have htiling := Token.tiling_of_scanFrom (unlimited_iff.1 hts).1
  cases h with
  | leading hop =>
    exact blames_of_token htiling (List.mem_of_getElem? hop)
      fun run hspells _ => eq_of_spells_operator hspells
  | doubled hop =>
    exact blames_of_token htiling (List.mem_of_getElem? hop)
      fun run hspells _ => eq_of_spells_operator hspells
  | trailing hop _ =>
    exact blames_of_token htiling (List.mem_of_getElem? hop)
      fun run hspells _ => eq_of_spells_operator hspells
  | valueless hnumeral hdecode =>
    have htoken := List.mem_of_getElem? hnumeral
    exact blames_of_token htiling htoken fun run hspells hslice =>
      shows_of_decode_error hts htoken hdecode hspells hslice
  | operatorExpected hnumeral =>
    refine blames_of_token htiling (List.mem_of_getElem? hnumeral) fun run hspells _ => ?_
    obtain ⟨number, _, hnumber⟩ := hspells.exists_number
    exact ⟨⟨number, hnumber⟩, hspells.text_eq.symm⟩
  | overflow hbehind hnumeral hdecode hsum =>
    obtain ⟨op, opSpan, rfl⟩ := hbefore.exists_operator hbehind
    exact blames_of_sum hts hbehind hnumeral hdecode hsum

end Violation

/-! ## All rejections -/

theorem placed_of_total_error {rejection : Rejection}
    (h : total limits text = .error rejection) : Placed limits text rejection := by
  rcases tokens_or_total_error h with h | ⟨ts, hts, h⟩
  · exact placed_of_tokens_error h
  · obtain ⟨_, hscan, hne, _⟩ := tokens_eq_ok_iff.1 hts
    obtain ⟨result, hverdict⟩ := Token.exists_verdict ts
    obtain rfl := (Token.total_eq_of_verdict hverdict).symm.trans h
    cases hverdict with
    | empty hempty => exact absurd hempty hne
    | refused hviolation hbefore =>
      exact placed_of_violation (unlimited_iff.2 ⟨hscan, hne⟩) hviolation hbefore

/-- **A rejection points at what is wrong**: all but the length of a text have a span, which lies in
the text on boundaries of characters and is not empty unless the text is, and in which the text
holds what the fault is about. -/
theorem total_error_blames {rejection : Rejection} (h : total limits text = .error rejection) :
    (rejection.span? = none ↔
        ∃ length maxLength, rejection.fault = .tooLong length maxLength) ∧
      ∀ span, rejection.span? = some span → Blames limits text rejection.fault span := by
  have hplaced := placed_of_total_error h
  obtain ⟨fault, span?⟩ := rejection
  cases span? with
  | none => exact ⟨⟨fun _ => hplaced, fun _ => rfl⟩, by simp⟩
  | some span =>
    refine ⟨⟨by simp, ?_⟩, ?_⟩
    · rintro ⟨length, maxLength, rfl⟩
      obtain ⟨_, _, hshows⟩ := hplaced.shows
      exact hshows.elim
    · rintro _ ⟨⟩
      exact hplaced

/-- A sum beyond the greatest amount, with blanks of three bytes and a letter of two. -/
theorem total_error_blames_wide :
    total {} "9223372036854775807\u3000+\u2003ı".toList =
        .error (Fault.overflow.inSpan ⟨22, 28⟩) ∧
      Blames {} "9223372036854775807\u3000+\u2003ı".toList .overflow ⟨22, 28⟩ ∧
      Span.slice? ⟨22, 28⟩ "9223372036854775807\u3000+\u2003ı".toList =
        some "+\u2003ı".toList := by
  have hts : tokens {} "9223372036854775807\u3000+\u2003ı".toList =
      .ok [⟨.numeral ⟨.digits, "9223372036854775807".toList⟩, ⟨0, 19⟩⟩,
        ⟨.operator .plus, ⟨22, 23⟩⟩, ⟨.numeral ⟨.roman, ['I']⟩, ⟨26, 28⟩⟩] := rfl
  have hone : Numeral.decode ⟨.roman, ['I']⟩ = .ok 1 := rfl
  have h : total {} "9223372036854775807\u3000+\u2003ı".toList =
      .error (Fault.overflow.inSpan ⟨22, 28⟩) := by
    rw [total_of_tokens hts, Token.total_of_ok rfl, Token.totalFrom_of_overflow hone (by decide)]
    rfl
  exact ⟨h, (total_error_blames h).2 _ rfl, rfl⟩

/-! ## Rejections of texts and of bytes -/

/-- The rejections of expressions, whatever is asked of them. -/
inductive Rejects (limits : Limits) (rejection : Rejection) : Prop where
  | tokens {text : Text} : tokens limits text = .error rejection → Rejects limits rejection
  | total {text : Text} : total limits text = .error rejection → Rejects limits rejection
  | reckoning {text : Text} : reckon limits text = .error rejection → Rejects limits rejection
  | bytes {bytes : List UInt8} : totalOfBytes limits bytes = .error rejection →
    Rejects limits rejection

section Rejects

variable {rejection : Rejection}

theorem total_of_reckon_error (h : reckon limits text = .error rejection) :
    total limits text = .error rejection := by
  unfold reckon at h
  unfold total
  cases hts : tokens limits text with
  | error other =>
    rw [hts] at h
    exact congrArg Except.error (Except.error.inj h)
  | ok ts =>
    rw [hts] at h
    cases ht : Token.total ts with
    | error other =>
      simp only [bind, Except.bind, ht] at h ⊢
      exact congrArg Except.error (Except.error.inj h)
    | ok t => simp [bind, Except.bind, ht, pure, Except.pure] at h

/-- All rejections are those of totals, and that of bytes which are no text. -/
theorem Rejects.total_or_broken (h : Rejects limits rejection) :
    (∃ text, Expression.total limits text = .error rejection) ∨
      ∃ bytes span, Utf8.BrokenAt bytes span ∧ rejection = Fault.notText.inSpan span := by
  cases h with
  | tokens h => exact .inl ⟨_, total_of_tokens_error h⟩
  | total h => exact .inl ⟨_, h⟩
  | reckoning h => exact .inl ⟨_, total_of_reckon_error h⟩
  | @bytes bytes h =>
    rw [totalOfBytes] at h
    cases hdecode : Utf8.decode bytes with
    | ok text =>
      rw [hdecode] at h
      exact .inl ⟨text, h⟩
    | error span =>
      rw [hdecode] at h
      exact .inr ⟨bytes, span, Utf8.decode_eq_error_iff.1 hdecode, (Except.error.inj h).symm⟩

/-- No rejection has a span that ends before it starts. -/
theorem Rejects.start_le_stop (h : Rejects limits rejection) {span : Span}
    (hspan : rejection.span? = some span) : span.start ≤ span.stop := by
  rcases h.total_or_broken with ⟨text, h⟩ | ⟨bytes, broken, hbroken, rfl⟩
  · have hplaced := placed_of_total_error h
    rw [Placed, hspan] at hplaced
    exact hplaced.ordered
  · cases hspan
    exact Nat.le_trans (Nat.le_succ _) hbroken.size.1

end Rejects

end Expression

end RomanInvoice
