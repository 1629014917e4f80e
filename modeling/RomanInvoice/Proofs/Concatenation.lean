import Mathlib.Data.List.Basic
import RomanInvoice.Proofs.Spacing

/-!
# Concatenation — the tokens of two texts in a row

A text may be read in two parts: its tokens are those of the front and, moved by the length of the
front, those of the back. Only where the cut goes through a number do the two tokens at the cut
become one (`Token.Spliced`). Both follow the tiling of the front, token by token; what is behind
matters for the last token alone, and there through its first character.
-/

namespace RomanInvoice

/-- A span in a text that has so many more bytes in front. -/
def Span.shift (n : Nat) (span : Span) : Span :=
  ⟨n + span.start, n + span.stop⟩

/-- A token in a text that has so many more bytes in front. -/
def Token.shift (n : Nat) (token : Token) : Token :=
  ⟨token.lexeme, token.span.shift n⟩

theorem betweenNumbers_iff {a b : Text} :
    BetweenNumbers a b ↔ ∀ script, a.getLast?.bind Script.ofChar? = some script →
      b.head?.bind Script.ofChar? ≠ some script := by
  constructor
  · intro h script hlast hhead
    obtain ⟨c, hc, hscript⟩ := Option.bind_eq_some_iff.1 hlast
    obtain ⟨d, hd, hscript'⟩ := Option.bind_eq_some_iff.1 hhead
    exact h c hc d hd (sameScript_iff.2 ⟨script, hscript, hscript'⟩)
  · intro h c hc d hd hsame
    obtain ⟨script, hscript, hscript'⟩ := sameScript_iff.1 hsame
    exact h script (Option.bind_eq_some_iff.2 ⟨c, hc, hscript⟩)
      (Option.bind_eq_some_iff.2 ⟨d, hd, hscript'⟩)

theorem BetweenNumbers.of_append {a a' b : Text} (h : BetweenNumbers (a ++ a') b) :
    BetweenNumbers a' b := by
  intro c hc
  refine h c ?_
  rw [Option.mem_def, List.getLast?_append, Option.mem_def.1 hc, Option.some_or]

theorem Lexeme.Spells.getLast?_script {numeral : Numeral} {run : Text}
    (h : (Lexeme.numeral numeral).Spells run) :
    run.getLast?.bind Script.ofChar? = some numeral.script := by
  cases hlast : run.getLast? with
  | none => exact absurd (List.getLast?_eq_none_iff.1 hlast) h.ne_nil
  | some c => exact h.figures.ofChar?_eq c (List.mem_of_getLast? hlast)

namespace Token

/-- Tokens put together where a number goes on from the ones to the others: the two tokens of the
number become one. -/
inductive Spliced (script : Script) : List Token → List Token → List Token → Prop where
  | intro (front back : List Token) (x y : Text) (span span' : Span) :
    Spliced script (front ++ [⟨.numeral ⟨script, x⟩, span⟩]) (⟨.numeral ⟨script, y⟩, span'⟩ :: back)
      (front ++ ⟨.numeral ⟨script, x ++ y⟩, span.through span'⟩ :: back)

theorem Spliced.cons {script : Script} {ts us vs : List Token} (token : Token)
    (h : Spliced script ts us vs) : Spliced script (token :: ts) us (token :: vs) := by
  cases h with
  | intro front back x y span span' => exact .intro (token :: front) back x y span span'

namespace Tiling

variable {start : Nat} {a b text run rest : Text} {ts us : List Token} {lexeme : Lexeme}
  {script : Script}

/-- A token in front of a tiled text that does not go on with its figures. -/
theorem cons_of_head (hspells : lexeme.Spells run) (hrest : Tiling (start + run.byteSize) rest ts)
    (hhead : ∀ numeral, lexeme = .numeral numeral →
      rest.head?.bind Script.ofChar? ≠ some numeral.script) :
    Tiling start (run ++ rest) (⟨lexeme, ⟨start, start + run.byteSize⟩⟩ :: ts) :=
  .token hspells hrest (hrest.join?_head_eq_none_iff.2 hhead)

/-- A tiling moves with its text. -/
theorem shift (n : Nat) (h : Tiling start text ts) :
    Tiling (n + start) text (ts.map (Token.shift n)) := by
  induction h with
  | nil start => exact .nil _
  | blank hc _ ih =>
    rw [← Nat.add_assoc] at ih
    exact .blank hc ih
  | token hspells hrest hjoin ih =>
    rw [← Nat.add_assoc] at ih
    rw [List.map_cons, Token.shift, Span.shift, ← Nat.add_assoc]
    exact cons_of_head hspells ih (hrest.join?_head_eq_none_iff.1 hjoin)

/-- The tokens of two texts between which no number is cut in two. -/
theorem append (ha : Tiling start a ts) (hb : Tiling (start + a.byteSize) b us)
    (hbetween : BetweenNumbers a b) : Tiling start (a ++ b) (ts ++ us) := by
  induction ha with
  | nil start => exact hb
  | @blank start c text tokens hc _ ih =>
    rw [Text.byteSize_cons, ← Nat.add_assoc] at hb
    have hbehind : BetweenNumbers text b := BetweenNumbers.of_append (a := [c]) hbetween
    exact .blank hc (ih hb hbehind)
  | @token start run rest lexeme tokens hspells hrest hjoin ih =>
    rw [Text.byteSize_append, ← Nat.add_assoc] at hb
    rw [List.append_assoc]
    refine cons_of_head hspells (ih hb hbetween.of_append) ?_
    rintro numeral rfl
    cases rest with
    | nil =>
      rw [List.append_nil] at hbetween
      exact betweenNumbers_iff.1 hbetween _ hspells.getLast?_script
    | cons d rest => exact hrest.join?_head_eq_none_iff.1 hjoin numeral rfl

/-- A numeral in front of a tiled text that goes on with its figures. -/
theorem splice {x : Text} (hspells : (Lexeme.numeral ⟨script, x⟩).Spells run)
    (hb : Tiling (start + run.byteSize) b us) (hfirst : b.head?.bind Script.ofChar? = some script) :
    ∃ vs, Spliced script [⟨.numeral ⟨script, x⟩, ⟨start, start + run.byteSize⟩⟩] us vs ∧
      Tiling start (run ++ b) vs := by
  cases hb with
  | nil => cases hfirst
  | blank hc _ =>
    rw [List.head?_cons, Option.bind_some, Script.ofChar?_of_isBlank hc] at hfirst
    cases hfirst
  | @token _ run' rest lexeme back hspells' hrest hjoin =>
    obtain ⟨d, run', rfl⟩ := List.exists_cons_of_ne_nil hspells'.ne_nil
    obtain ⟨y, rfl⟩ := hspells'.exists_numeral List.mem_cons_self hfirst
    have hboth : (Lexeme.numeral ⟨script, x ++ y⟩).Spells (run ++ d :: run') :=
      .of_figures (List.append_ne_nil_of_left_ne_nil hspells.ne_nil _)
        (hspells.figures.append hspells'.figures)
    have hsize : start + run.byteSize + Text.byteSize (d :: run') =
        start + Text.byteSize (run ++ d :: run') := by
      rw [Text.byteSize_append, Nat.add_assoc]
    have hhead := hrest.join?_head_eq_none_iff.1 hjoin ⟨script, y⟩ rfl
    refine ⟨_, .intro [] back x y _ _, ?_⟩
    rw [hsize] at hrest ⊢
    rw [← List.append_assoc]
    refine cons_of_head hboth hrest ?_
    rintro _ ⟨⟩
    exact hhead

/-- The tokens of two texts between which a number is cut in two. -/
theorem append_spliced (ha : Tiling start a ts) (hb : Tiling (start + a.byteSize) b us)
    (hlast : a.getLast?.bind Script.ofChar? = some script)
    (hfirst : b.head?.bind Script.ofChar? = some script) :
    ∃ vs, Spliced script ts us vs ∧ Tiling start (a ++ b) vs := by
  induction ha with
  | nil start => cases hlast
  | @blank start c text tokens hc _ ih =>
    rw [Text.byteSize_cons, ← Nat.add_assoc] at hb
    cases text with
    | nil =>
      rw [List.getLast?_singleton, Option.bind_some, Script.ofChar?_of_isBlank hc] at hlast
      cases hlast
    | cons d text =>
      rw [List.getLast?_cons_cons] at hlast
      obtain ⟨vs, hspliced, hvs⟩ := ih hb hlast
      exact ⟨vs, hspliced, .blank hc hvs⟩
  | @token start run rest lexeme tokens hspells hrest hjoin ih =>
    rw [Text.byteSize_append, ← Nat.add_assoc] at hb
    rw [List.append_assoc]
    cases rest with
    | nil =>
      -- the last token of the front is the first part of the number
      obtain rfl : tokens = [] := List.eq_nil_of_length_eq_zero (Nat.le_zero.1 hrest.length_le)
      obtain ⟨c, hc, hscript⟩ := Option.bind_eq_some_iff.1 hlast
      rw [List.append_nil] at hc
      obtain ⟨x, rfl⟩ := hspells.exists_numeral (List.mem_of_getLast? hc) hscript
      exact splice hspells hb hfirst
    | cons d rest =>
      rw [List.getLast?_append_of_ne_nil _ (List.cons_ne_nil d rest)] at hlast
      obtain ⟨vs, hspliced, hvs⟩ := ih hb hlast
      exact ⟨_, hspliced.cons _,
        cons_of_head hspells hvs (hrest.join?_head_eq_none_iff.1 hjoin)⟩

end Tiling

end Token

namespace Expression

/-- What a text is read as when no limit is in its way; a text of blanks, which is refused for being
empty, is read as no tokens. -/
def ReadAs (text : Text) (ts : List Token) : Prop :=
  Unlimited text ts ∨ (∀ c ∈ text, isBlank c) ∧ ts = []

section ReadAs

variable {a b text : Text} {ts : List Token}

theorem readAs_iff : ReadAs text ts ↔ Token.scan text = .ok ts := by
  rw [ReadAs, unlimited_iff, ← @Token.Tiling.nil_iff 0 text, ← Token.scanFrom_eq_ok_iff]
  constructor
  · rintro (h | ⟨h, rfl⟩)
    · exact h.1
    · exact h
  · intro h
    by_cases hne : ts = []
    · subst hne
      exact .inr ⟨h, rfl⟩
    · exact .inl ⟨h, hne⟩

theorem exists_readAs (h : ∀ c ∈ text, Legal c) : ∃ ts, ReadAs text ts := by
  cases hscan : Token.scan text with
  | ok ts => exact ⟨ts, readAs_iff.2 hscan⟩
  | error rejection =>
    obtain ⟨front, c, back, rfl, _, hc, _⟩ := Token.scanFrom_eq_error_iff.1 hscan
    exact absurd (h c (by simp)) hc

/-- **Tokens of two texts in a row**: they are the tokens of the first text and those of the second,
moved by the length of the first, except where the last character of the first and the first of the
second are both digits or both Roman letters. There the two tokens at the cut become one of their
script, with the texts of both and a span from the beginning of the first to the end of the
second. -/
theorem readAs_append (ha : ∀ c ∈ a, Legal c) (hb : ∀ c ∈ b, Legal c) :
    ∃ ts us, ReadAs a ts ∧ ReadAs b us ∧
      (BetweenNumbers a b → ReadAs (a ++ b) (ts ++ us.map (Token.shift a.byteSize))) ∧
      (¬ BetweenNumbers a b → ∃ script vs,
        a.getLast?.bind Script.ofChar? = some script ∧
        Token.Spliced script ts (us.map (Token.shift a.byteSize)) vs ∧ ReadAs (a ++ b) vs) := by
  obtain ⟨ts, hts⟩ := exists_readAs ha
  obtain ⟨us, hus⟩ := exists_readAs hb
  have hfront := Token.tiling_of_scanFrom (readAs_iff.1 hts)
  have hback : Token.Tiling (0 + a.byteSize) b (us.map (Token.shift a.byteSize)) := by
    rw [Nat.add_comm]
    exact (Token.tiling_of_scanFrom (readAs_iff.1 hus)).shift a.byteSize
  refine ⟨ts, us, hts, hus, ?_, ?_⟩
  · intro hbetween
    exact readAs_iff.2 (Token.scanFrom_of_tiling (hfront.append hback hbetween))
  · intro hcut
    simp only [betweenNumbers_iff, not_forall, not_not] at hcut
    obtain ⟨script, hlast, hfirst⟩ := hcut
    obtain ⟨vs, hspliced, hvs⟩ := hfront.append_spliced hback hlast hfirst
    exact ⟨script, vs, hlast, hspliced, readAs_iff.2 (Token.scanFrom_of_tiling hvs)⟩

/-- The numeral `ıx` behind a blank of three bytes, with the cut through it and in front of it. -/
theorem readAs_append_dotless :
    (∃ script vs, "\u3000ı".toList.getLast?.bind Script.ofChar? = some script ∧
      Token.Spliced script [⟨.numeral ⟨.roman, ['I']⟩, ⟨3, 5⟩⟩]
        [⟨.numeral ⟨.roman, ['X']⟩, ⟨5, 6⟩⟩, ⟨.operator .plus, ⟨6, 7⟩⟩] vs ∧
      ReadAs ("\u3000ı".toList ++ "x+".toList) vs) ∧
    ReadAs ("\u3000".toList ++ "ıx+".toList)
      ([] ++ [⟨.numeral ⟨.roman, ['I', 'X']⟩, ⟨3, 6⟩⟩, ⟨.operator .plus, ⟨6, 7⟩⟩]) := by
  constructor
  · have hfront : Token.scan "\u3000ı".toList = .ok [⟨.numeral ⟨.roman, ['I']⟩, ⟨3, 5⟩⟩] := rfl
    have hback : Token.scan "x+".toList =
        .ok [⟨.numeral ⟨.roman, ['X']⟩, ⟨0, 1⟩⟩, ⟨.operator .plus, ⟨1, 2⟩⟩] := rfl
    obtain ⟨ts, us, hts, hus, _, hcut⟩ :=
      readAs_append (a := "\u3000ı".toList) (b := "x+".toList) (legal_of_all rfl)
        (legal_of_all rfl)
    rw [readAs_iff, hfront] at hts
    rw [readAs_iff, hback] at hus
    cases hts
    cases hus
    exact hcut fun hbetween => betweenNumbers_iff.1 hbetween .roman rfl rfl
  · have hfront : Token.scan "\u3000".toList = .ok [] := rfl
    have hback : Token.scan "ıx+".toList =
        .ok [⟨.numeral ⟨.roman, ['I', 'X']⟩, ⟨0, 3⟩⟩, ⟨.operator .plus, ⟨3, 4⟩⟩] := rfl
    have hblank : "\u3000".toList.getLast?.bind Script.ofChar? = none := rfl
    obtain ⟨ts, us, hts, hus, happend, _⟩ :=
      readAs_append (a := "\u3000".toList) (b := "ıx+".toList) (legal_of_all rfl)
        (legal_of_all rfl)
    rw [readAs_iff, hfront] at hts
    rw [readAs_iff, hback] at hus
    cases hts
    cases hus
    refine happend (betweenNumbers_iff.2 fun script hlast => ?_)
    rw [hblank] at hlast
    cases hlast

end ReadAs

end Expression

end RomanInvoice
