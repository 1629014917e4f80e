import RomanInvoice.Proofs.Limits

/-!
# Maximal munch — the only decomposition of a text

What the tokens of a text owe it can be said without the scanner: their spans lie in order on
character boundaries and leave out exactly the blanks, each token stands for what its span holds,
and numerals that touch are of different scripts. `Token.MaximalMunch` collects these properties.
They are the ones of a tiling (`Token.maximalMunch_iff_tiling`), and since the scanner is a
function, a text has no second decomposition that has them.
-/

namespace RomanInvoice

/-- Whether a span holds all the bytes of another. -/
def Span.Covers (outer inner : Span) : Prop :=
  outer.start ≤ inner.start ∧ inner.stop ≤ outer.stop

/-- A character of two texts in a row is one of the second or one of the first. -/
theorem Text.append_eq_append_cons {run rest a b : Text} {c : Char}
    (h : run ++ rest = a ++ c :: b) :
    (∃ x, a = run ++ x ∧ rest = x ++ c :: b) ∨ ∃ x, run = a ++ c :: x := by
  rcases List.append_eq_append_iff.1 h with ⟨x, rfl, hrest⟩ | ⟨x, rfl, hrest⟩
  · exact .inl ⟨x, rfl, hrest⟩
  · cases x with
    | nil => exact .inl ⟨[], by simp, hrest.symm⟩
    | cons d x =>
      cases hrest
      exact .inr ⟨x, rfl⟩

/-- Of two fronts of one text, the one of fewer bytes is a front of the other. -/
theorem Text.exists_of_append_eq_append {a b x y : Text} (h : a ++ b = x ++ y)
    (hle : a.byteSize ≤ x.byteSize) : ∃ gap, x = a ++ gap ∧ b = gap ++ y := by
  rcases List.append_eq_append_iff.1 h with ⟨gap, hx, hb⟩ | ⟨gap, ha, hy⟩
  · exact ⟨gap, hx, hb⟩
  · have hgap : gap = [] := by
      by_cases hne : gap = []
      · exact hne
      · have hpos := Text.byteSize_pos hne
        rw [ha, Text.byteSize_append] at hle
        omega
    subst hgap
    exact ⟨[], by simpa using ha.symm, by simpa using hy.symm⟩

namespace Token

/-- The maximal-munch decomposition of a text. -/
structure MaximalMunch (text : Text) (tokens : List Token) : Prop where
  nonempty : ∀ token ∈ tokens, token.span.start < token.span.stop
  inBounds : ∀ token ∈ tokens, token.span.stop ≤ text.byteSize
  onBoundaries : ∀ token ∈ tokens, (text.splitAtByte? token.span.start).isSome ∧
    (text.splitAtByte? token.span.stop).isSome
  ordered : tokens.Pairwise fun first second =>
    first.span.start < second.span.start ∧ first.span.stop ≤ second.span.start
  /-- The blanks are the characters that no token covers. -/
  isBlank_iff : ∀ (a : Text) (c : Char) (b : Text), text = a ++ c :: b →
    (isBlank c ↔ ∀ token ∈ tokens, ¬ token.span.Covers ⟨a.byteSize, a.byteSize + c.utf8Size⟩)
  operator : ∀ op span, ⟨.operator op, span⟩ ∈ tokens → span.slice? text = some [op.toChar]
  digits : ∀ figures span, ⟨.numeral ⟨.digits, figures⟩, span⟩ ∈ tokens →
    span.slice? text = some figures ∧ ∀ c ∈ figures, c.isDigit
  roman : ∀ figures span, ⟨.numeral ⟨.roman, figures⟩, span⟩ ∈ tokens →
    ∃ run, span.slice? text = some run ∧ run.map Roman.capital? = figures.map some
  /-- Numerals that touch are of different scripts. -/
  apart : tokens.Pairwise fun first second => ∀ a b, first.lexeme = .numeral a →
    second.lexeme = .numeral b → first.span.stop = second.span.start → a.script ≠ b.script

/-! ## A tiling is a maximal munch -/

namespace Tiling

variable {start : Nat} {text : Text} {tokens : List Token}

/-- A token of a tiling cuts the text in three, and is spelled by the part between. -/
theorem exists_run (h : Tiling start text tokens) : ∀ token ∈ tokens,
    ∃ a run b : Text, text = a ++ run ++ b ∧ token.lexeme.Spells run ∧
      token.span = ⟨start + a.byteSize, start + (a ++ run).byteSize⟩ := by
  intro token ht
  obtain ⟨front, back, rfl⟩ := List.append_of_mem ht
  obtain ⟨before, _, rfl, htail⟩ := h.exists_drop
  obtain ⟨blanks, run, rest, rfl, _, hspells, hspan, _⟩ := htail.exists_split
  refine ⟨before ++ blanks, run, rest, by simp, hspells, ?_⟩
  rw [hspan]
  simp [Nat.add_assoc]

theorem start_lt_stop (h : Tiling start text tokens) :
    ∀ token ∈ tokens, token.span.start < token.span.stop := by
  intro token ht
  obtain ⟨a, run, b, _, hspells, hspan⟩ := h.exists_run token ht
  have hpos := Text.byteSize_pos hspells.ne_nil
  rw [hspan]
  simp only [Text.byteSize_append]
  omega

theorem pairwise_stop_le (h : Tiling start text tokens) :
    tokens.Pairwise fun first second => first.span.stop ≤ second.span.start := by
  induction h with
  | nil start => exact .nil
  | blank _ _ ih => exact ih
  | token _ hrest _ ih => exact .cons hrest.start_le ih

/-- No two numerals of a tiling could be joined, neighbours or not. -/
theorem pairwise_join?_eq_none (h : Tiling start text tokens) :
    tokens.Pairwise fun first second => first.join? second = none := by
  induction h with
  | nil start => exact .nil
  | blank _ _ ih => exact ih
  | @token start run rest lexeme tokens _ hrest hjoin ih =>
    refine .cons ?_ ih
    intro second hsecond
    cases tokens with
    | nil => cases hsecond
    | cons next tokens =>
      rcases List.mem_cons.1 hsecond with rfl | hsecond
      · exact hjoin second rfl
      · -- the token behind the first lies between the two
        have hstart := hrest.start_le next (by simp)
        have hnext := hrest.start_lt_stop next (by simp)
        have horder := (List.pairwise_cons.1 hrest.pairwise_stop_le).1 second hsecond
        rw [join?_eq_none_iff]
        intro a b _ _ htouch
        simp only at htouch
        omega

/-- A character of a tiled text lies in a token unless it is a blank. -/
theorem isBlank_iff (h : Tiling start text tokens) {a b : Text} {c : Char}
    (htext : text = a ++ c :: b) :
    isBlank c ↔ ∀ token ∈ tokens,
      ¬ token.span.Covers ⟨start + a.byteSize, start + a.byteSize + c.utf8Size⟩ := by
  have hpos := c.utf8Size_pos
  induction h generalizing a with
  | nil start => simp at htext
  | @blank start d text tokens hd hrest ih =>
    cases a with
    | nil =>
      cases htext
      refine ⟨fun _ token ht hcovers => ?_, fun _ => hd⟩
      have hstart := hrest.start_le token ht
      have hle := hcovers.1
      simp only [Text.byteSize_nil] at hle
      omega
    | cons x a =>
      cases htext
      rw [Text.byteSize_cons, ← Nat.add_assoc]
      exact ih rfl
  | @token start run rest lexeme tokens hspells hrest _ ih =>
    rw [List.forall_mem_cons]
    rcases Text.append_eq_append_cons htext with ⟨x, rfl, hrest'⟩ | ⟨x, rfl⟩
    · -- the character is behind the first token
      have hsize : start + (run ++ x).byteSize = start + run.byteSize + x.byteSize := by
        rw [Text.byteSize_append, Nat.add_assoc]
      have hnot : ¬ Span.Covers ⟨start, start + run.byteSize⟩
          ⟨start + run.byteSize + x.byteSize,
            start + run.byteSize + x.byteSize + c.utf8Size⟩ := by
        intro hcovers
        have hle := hcovers.2
        simp only at hle
        omega
      have hbehind := ih hrest'
      rw [hsize]
      exact ⟨fun hc => ⟨hnot, hbehind.1 hc⟩, fun hall => hbehind.2 hall.2⟩
    · -- the character is one of the run of the first token
      have hc : isBlank c = false := hspells.isBlank_eq_false c (by simp)
      have hcovers : Span.Covers ⟨start, start + (a ++ c :: x).byteSize⟩
          ⟨start + a.byteSize, start + a.byteSize + c.utf8Size⟩ := by
        refine ⟨Nat.le_add_right _ _, ?_⟩
        simp only [Text.byteSize_append, Text.byteSize_cons]
        omega
      refine ⟨fun hblank => ?_, fun hall => absurd hcovers hall.1⟩
      rw [hc] at hblank
      cases hblank

/-- The tokens of a text spell it without its blanks. -/
theorem flatMap_text (h : Tiling start text tokens) :
    tokens.flatMap Token.text = (text.filter (!isBlank ·)).map Roman.capitalized := by
  induction h with
  | nil start => rfl
  | blank hc _ ih => rw [ih, List.filter_cons_of_neg (by simp [hc])]
  | @token start run rest lexeme tokens hspells _ _ ih =>
    have hrun : run.filter (!isBlank ·) = run := by
      rw [List.filter_eq_self]
      intro c hc
      simp [hspells.isBlank_eq_false c hc]
    rw [List.flatMap_cons, ih, List.filter_append, List.map_append, hrun]
    exact congrArg (· ++ _) hspells.text_eq

/-- The part of a text that a token of a tiling is spelled by is what its span holds. -/
theorem exists_slice (h : Tiling 0 text tokens) : ∀ token ∈ tokens,
    ∃ run, token.lexeme.Spells run ∧ token.span.slice? text = some run := by
  intro token ht
  obtain ⟨a, run, b, htext, hspells, hspan⟩ := h.exists_run token ht
  refine ⟨run, hspells, Span.slice?_eq_some_iff.2 ⟨a, b, htext, ?_⟩⟩
  rw [hspan, Nat.zero_add, Nat.zero_add]

theorem maximalMunch (h : Tiling 0 text tokens) : MaximalMunch text tokens where
  nonempty := h.start_lt_stop
  inBounds := by
    intro token ht
    obtain ⟨a, run, b, rfl, _, hspan⟩ := h.exists_run token ht
    rw [hspan]
    simp only [Text.byteSize_append]
    omega
  onBoundaries := by
    intro token ht
    obtain ⟨a, run, b, rfl, _, hspan⟩ := h.exists_run token ht
    rw [hspan, Nat.zero_add, Nat.zero_add, Text.splitAtByte?_append, List.append_assoc,
      Text.splitAtByte?_append]
    exact ⟨rfl, rfl⟩
  ordered := by
    refine h.pairwise_stop_le.imp_of_mem ?_
    intro first second hfirst _ hle
    exact ⟨Nat.lt_of_lt_of_le (h.start_lt_stop first hfirst) hle, hle⟩
  isBlank_iff := by
    intro a c b htext
    have hblank := h.isBlank_iff htext
    rw [Nat.zero_add] at hblank
    exact hblank
  operator := by
    intro op span ht
    obtain ⟨run, hspells, hslice⟩ := h.exists_slice _ ht
    cases hspells
    exact hslice
  digits := by
    intro figures span ht
    obtain ⟨run, hspells, hslice⟩ := h.exists_slice _ ht
    obtain ⟨hall, rfl⟩ := Figures.digits_iff.1 hspells.figures
    exact ⟨hslice, hall⟩
  roman := by
    intro figures span ht
    obtain ⟨run, hspells, hslice⟩ := h.exists_slice _ ht
    exact ⟨run, hslice, Figures.roman_iff.1 hspells.figures⟩
  apart := h.pairwise_join?_eq_none.imp fun hjoin => join?_eq_none_iff.1 hjoin

end Tiling

/-! ## A maximal munch is a tiling -/

section Uniqueness

variable {text : Text} {tokens : List Token}

/-- A token of a maximal munch is spelled by what its span holds. -/
theorem MaximalMunch.exists_run (h : MaximalMunch text tokens) : ∀ token ∈ tokens,
    ∃ a run b : Text, text = a ++ run ++ b ∧ token.lexeme.Spells run ∧
      token.span = ⟨a.byteSize, (a ++ run).byteSize⟩ := by
  intro token ht
  have hlt := h.nonempty token ht
  -- a span that holds something is not empty, so neither is a numeral
  have hne {a run : Text} (hspan : token.span = ⟨a.byteSize, (a ++ run).byteSize⟩) :
      run ≠ [] := by
    intro hrun
    rw [hspan, hrun, List.append_nil] at hlt
    exact Nat.lt_irrefl _ hlt
  obtain ⟨lexeme, span⟩ := token
  cases lexeme with
  | operator op =>
    obtain ⟨a, b, htext, hspan⟩ := Span.slice?_eq_some_iff.1 (h.operator op span ht)
    exact ⟨a, [op.toChar], b, htext, .operator op, hspan⟩
  | numeral numeral =>
    obtain ⟨script, figures⟩ := numeral
    cases script with
    | digits =>
      obtain ⟨hslice, hall⟩ := h.digits figures span ht
      obtain ⟨a, b, htext, hspan⟩ := Span.slice?_eq_some_iff.1 hslice
      have hfigures : Figures .digits figures figures := Figures.digits_iff.2 ⟨hall, rfl⟩
      exact ⟨a, figures, b, htext, .of_figures (hne hspan) hfigures, hspan⟩
    | roman =>
      obtain ⟨run, hslice, hmap⟩ := h.roman figures span ht
      obtain ⟨a, b, htext, hspan⟩ := Span.slice?_eq_some_iff.1 hslice
      exact ⟨a, run, b, htext, .of_figures (hne hspan) (Figures.roman_iff.2 hmap), hspan⟩

/-- The invariant of reading the tokens from the left: those that are left lie behind `front`, and
leave nothing but blanks uncovered there. -/
structure Fills (front rest : Text) (tokens : List Token) : Prop where
  runs : ∀ token ∈ tokens, ∃ a run b : Text, front ++ rest = a ++ run ++ b ∧
    token.lexeme.Spells run ∧ token.span = ⟨a.byteSize, (a ++ run).byteSize⟩
  behind : ∀ token ∈ tokens, front.byteSize ≤ token.span.start
  ordered : tokens.Pairwise fun first second => first.span.stop ≤ second.span.start
  blanks : ∀ (a : Text) (c : Char) (b : Text), rest = a ++ c :: b →
    (∀ token ∈ tokens, ¬ token.span.Covers
      ⟨(front ++ a).byteSize, (front ++ a).byteSize + c.utf8Size⟩) → isBlank c
  apart : tokens.Pairwise fun first second => first.join? second = none

/-- One step: the blanks before the first token, its run, and the rest for the other tokens. -/
theorem Fills.step {front rest : Text} {token : Token} (h : Fills front rest (token :: tokens)) :
    ∃ gap run b : Text, rest = gap ++ run ++ b ∧ (∀ c ∈ gap, isBlank c) ∧
      token.lexeme.Spells run ∧
      token.span = ⟨(front ++ gap).byteSize, (front ++ gap ++ run).byteSize⟩ ∧
      Fills (front ++ gap ++ run) b tokens := by
  obtain ⟨a, run, b, htext, hspells, hspan⟩ := h.runs token (by simp)
  have hfront := h.behind token (by simp)
  rw [hspan] at hfront
  rw [List.append_assoc] at htext
  obtain ⟨gap, rfl, rfl⟩ := Text.exists_of_append_eq_append htext hfront
  have horder := (List.pairwise_cons.1 h.ordered).1
  refine ⟨gap, run, b, by simp, ?_, hspells, hspan, ?_⟩
  · intro c hc
    obtain ⟨x, y, rfl⟩ := List.append_of_mem hc
    refine h.blanks x c (y ++ (run ++ b)) (by simp) ?_
    intro other hother hcovers
    have hpos := c.utf8Size_pos
    have hstart : token.span.start ≤ other.span.start := by
      rcases List.mem_cons.1 hother with rfl | hother
      · exact Nat.le_refl _
      · have hlt := horder other hother
        rw [hspan] at hlt ⊢
        simp only [Text.byteSize_append] at hlt ⊢
        omega
    have hle := hcovers.1
    rw [hspan] at hstart
    simp only [Text.byteSize_append, Text.byteSize_cons] at hstart hle
    omega
  · refine ⟨?_, ?_, (List.pairwise_cons.1 h.ordered).2, ?_, (List.pairwise_cons.1 h.apart).2⟩
    · intro other hother
      simpa using h.runs other (by simp [hother])
    · intro other hother
      have hle := horder other hother
      rw [hspan] at hle
      exact hle
    · intro x c y hb huncovered
      refine h.blanks (gap ++ run ++ x) c y (by simp [hb]) ?_
      intro other hother hcovers
      rcases List.mem_cons.1 hother with rfl | hother
      · have hle := hcovers.2
        have hpos := c.utf8Size_pos
        rw [hspan] at hle
        simp only [Text.byteSize_append] at hle
        omega
      · refine huncovered other hother ?_
        simpa using hcovers

theorem Fills.tiling {front rest : Text} (h : Fills front rest tokens) :
    Tiling front.byteSize rest tokens := by
  induction tokens generalizing front rest with
  | nil =>
    rw [Tiling.nil_iff]
    intro c hc
    obtain ⟨a, b, rfl⟩ := List.append_of_mem hc
    exact h.blanks a c b rfl (by simp)
  | cons token tokens ih =>
    obtain ⟨gap, run, b, rfl, hblank, hspells, hspan, hfills⟩ := h.step
    have htoken : token = ⟨token.lexeme, ⟨front.byteSize + gap.byteSize,
        front.byteSize + gap.byteSize + run.byteSize⟩⟩ := by
      simp only [Text.byteSize_append] at hspan
      rw [← hspan]
    have hrest := ih hfills
    simp only [Text.byteSize_append] at hrest
    have hapart := (List.pairwise_cons.1 h.apart).1
    rw [htoken] at hapart ⊢
    rw [List.append_assoc]
    refine .blanks hblank (.token hspells hrest ?_)
    intro next hnext
    exact hapart next (List.mem_of_mem_head? hnext)

theorem MaximalMunch.fills (h : MaximalMunch text tokens) : Fills [] text tokens where
  runs := h.exists_run
  behind := fun _ _ => Nat.zero_le _
  ordered := h.ordered.imp And.right
  blanks := fun a c b htext huncovered => (h.isBlank_iff a c b htext).2 huncovered
  apart := h.apart.imp join?_eq_none_iff.2

theorem maximalMunch_iff_tiling : MaximalMunch text tokens ↔ Tiling 0 text tokens :=
  ⟨fun h => h.fills.tiling, Tiling.maximalMunch⟩

end Uniqueness

end Token

/-! ## Reading an expression -/

namespace Expression

/-- **The tokens are the maximal munch**: what an expression is read as is its maximal-munch
decomposition and nothing else is, and the texts of the tokens are the expression without blanks
and with Roman letters as capitals. -/
theorem maximalMunch_iff_eq_tokens {limits : Limits} {text : Text} {ts : List Token}
    (h : tokens limits text = .ok ts) :
    (∀ us, Token.MaximalMunch text us ↔ us = ts) ∧
      ts.flatMap Token.text = (text.filter (!isBlank ·)).map Roman.capitalized := by
  have hscan : Token.scanFrom 0 text = .ok ts := (tokens_eq_ok_iff.1 h).2.1
  have htiling := Token.tiling_of_scanFrom hscan
  refine ⟨fun us => ?_, htiling.flatMap_text⟩
  rw [Token.maximalMunch_iff_tiling]
  constructor
  · intro hus
    have hsame := (Token.scanFrom_of_tiling hus).symm.trans hscan
    exact Except.ok.inj hsame
  · intro hus
    rw [hus]
    exact htiling

/-- A dotless `ı` of two bytes, behind a blank of three and before digits that touch the numeral. -/
theorem maximalMunch_iff_eq_tokens_dotless :
    tokens {} "\u3000ıx12-".toList =
        .ok [⟨.numeral ⟨.roman, ['I', 'X']⟩, ⟨3, 6⟩⟩, ⟨.numeral ⟨.digits, ['1', '2']⟩, ⟨6, 8⟩⟩,
          ⟨.operator .minus, ⟨8, 9⟩⟩] ∧
      (∀ us, Token.MaximalMunch "\u3000ıx12-".toList us ↔
        us = [⟨.numeral ⟨.roman, ['I', 'X']⟩, ⟨3, 6⟩⟩, ⟨.numeral ⟨.digits, ['1', '2']⟩, ⟨6, 8⟩⟩,
          ⟨.operator .minus, ⟨8, 9⟩⟩]) := by
  have h : tokens {} "\u3000ıx12-".toList =
      .ok [⟨.numeral ⟨.roman, ['I', 'X']⟩, ⟨3, 6⟩⟩, ⟨.numeral ⟨.digits, ['1', '2']⟩, ⟨6, 8⟩⟩,
        ⟨.operator .minus, ⟨8, 9⟩⟩] := rfl
  exact ⟨h, (maximalMunch_iff_eq_tokens h).1⟩

end Expression

end RomanInvoice
