import Mathlib.Data.List.Basic
import RomanInvoice.Proofs.Limits
import RomanInvoice.Proofs.Total

/-!
# Normal forms — written lexemes are read back

A normal form puts a single space between lexemes, so no two of them can run together and the
scanner finds each where it was written. `Lexeme.layOut` says where that is. Any row of proper
lexemes is read back so, in grammatical order or not (`Expression.tokens_normalForm`), and the
normal form of an expression has its own total (`Expression.reckon_normalForm`); it can be longer
than the expression, and only for that be refused.
-/

namespace RomanInvoice

/-! ## Proper lexemes -/

/-- The characters with which lexemes are written. -/
def Written (c : Char) : Prop :=
  c.isDigit ∨ c ∈ "IVXLCDM+-".toList

theorem Written.utf8Size_eq_one {c : Char} (h : Written c) : c.utf8Size = 1 := by
  rw [Char.utf8Size_eq_one_iff, UInt32.le_iff_toNat_le]
  rcases h with hdigit | hmem
  · have := (isDigit_iff.1 hdigit).2
    show c.toNat ≤ 127
    omega
  · have hall : "IVXLCDM+-".toList.all (·.val.toNat ≤ 127) := by decide
    simpa using List.all_eq_true.1 hall c hmem

theorem Written.ne_equals {c : Char} (h : Written c) : c ≠ '=' := by
  rintro rfl
  exact absurd h (by simp [Written])

theorem Text.byteSize_eq_length {text : Text} (h : ∀ c ∈ text, Written c) :
    text.byteSize = text.length := by
  induction text with
  | nil => rfl
  | cons c text ih =>
    rw [byteSize_cons, (h c (by simp)).utf8Size_eq_one, ih fun d hd => h d (by simp [hd]),
      List.length_cons, Nat.add_comm]

theorem Roman.Letter.written_toChar (letter : Letter) : Written letter.toChar := by
  cases letter <;> exact .inr (by decide)

namespace Lexeme

/-- A lexeme as expressions hold them: the text of a numeral is a run of its script. -/
def Proper : Lexeme → Prop
  | operator _ => True
  | numeral ⟨.digits, text⟩ => text ≠ [] ∧ ∀ c ∈ text, c.isDigit
  | numeral ⟨.roman, text⟩ => text ≠ [] ∧ ∀ c ∈ text, Roman.isCapital c

instance : DecidablePred Proper
  | operator _ => isTrue trivial
  | numeral ⟨.digits, text⟩ =>
    decidable_of_iff (text ≠ [] ∧ text.all Char.isDigit) (by simp [Proper])
  | numeral ⟨.roman, text⟩ =>
    decidable_of_iff (text ≠ [] ∧ text.all Roman.isCapital) (by simp [Proper])

variable {lexeme : Lexeme} {lexemes : List Lexeme}

/-- What is read from a text is proper. -/
theorem Spells.proper {run : Text} (h : lexeme.Spells run) : lexeme.Proper := by
  cases h with
  | operator op => exact trivial
  | @number run number hnumber =>
    cases number with
    | decimal digits nonempty digital => exact ⟨nonempty, digital⟩
    | roman letters nonempty =>
      exact ⟨by simpa using nonempty, by simp [Roman.isCapital_toChar]⟩

/-- A proper lexeme is spelled by its own text. -/
theorem Proper.spells (h : lexeme.Proper) : lexeme.Spells lexeme.text := by
  match lexeme, h with
  | operator op, _ => exact .operator op
  | numeral ⟨.digits, text⟩, h => exact .of_figures h.1 (Figures.digits_iff.2 ⟨h.2, rfl⟩)
  | numeral ⟨.roman, text⟩, h =>
    refine .of_figures h.1 (Figures.roman_iff.2 ?_)
    exact List.map_congr_left fun c hc => Roman.capital?_of_isCapital (h.2 c hc)

theorem Proper.written (h : lexeme.Proper) : ∀ c ∈ lexeme.text, Written c := by
  match lexeme, h with
  | operator op, _ => cases op <;> exact fun c hc => .inr (by simp_all [text, Operator.toChar])
  | numeral ⟨.digits, text⟩, h => exact fun c hc => .inl (h.2 c hc)
  | numeral ⟨.roman, text⟩, h =>
    intro c hc
    obtain ⟨letter, rfl⟩ := Roman.isCapital_iff.1 (h.2 c hc)
    exact letter.written_toChar

theorem Proper.byteSize_text (h : lexeme.Proper) : lexeme.text.byteSize = lexeme.text.length :=
  Text.byteSize_eq_length h.written

/-! ## The layout of a normal form -/

/-- The tokens of the normal form of lexemes, if it begins at a byte offset. -/
def layOut (start : Nat) : List Lexeme → List Token
  | [] => []
  | lexeme :: lexemes =>
    ⟨lexeme, ⟨start, start + lexeme.text.length⟩⟩ ::
      layOut (start + (lexeme.text.length + 1)) lexemes

/-- How far lexemes reach in a normal form, with the space behind each. -/
def width : List Lexeme → Nat
  | [] => 0
  | lexeme :: lexemes => lexeme.text.length + 1 + width lexemes

theorem map_lexeme_layOut (start : Nat) (lexemes : List Lexeme) :
    (layOut start lexemes).map Token.lexeme = lexemes := by
  induction lexemes generalizing start with
  | nil => rfl
  | cons lexeme lexemes ih => rw [layOut, List.map_cons, ih]

theorem getElem?_layOut (start i : Nat) (lexemes : List Lexeme) :
    (layOut start lexemes)[i]? = lexemes[i]?.map fun lexeme =>
      ⟨lexeme, ⟨start + width (lexemes.take i),
        start + width (lexemes.take i) + lexeme.text.length⟩⟩ := by
  induction lexemes generalizing start i with
  | nil => rfl
  | cons lexeme lexemes ih =>
    cases i with
    | zero => simp [layOut, width]
    | succ i => simp [layOut, ih, width, Nat.add_assoc]

theorem normalForm_cons_cons (lexeme next : Lexeme) (lexemes : List Lexeme) :
    normalForm (lexeme :: next :: lexemes) =
      lexeme.text ++ ' ' :: normalForm (next :: lexemes) := by
  simp [normalForm, List.intercalate_cons_cons]

/-- The normal form of proper lexemes is tiled by them, for the space keeps neighbours apart. -/
theorem tiling_normalForm (start : Nat) (h : ∀ lexeme ∈ lexemes, lexeme.Proper) :
    Token.Tiling start (normalForm lexemes) (layOut start lexemes) := by
  induction lexemes generalizing start with
  | nil => exact .nil start
  | cons lexeme lexemes ih =>
    have hproper := h lexeme (by simp)
    have hsize := hproper.byteSize_text
    have hrest := fun start => ih start fun other hother => h other (by simp [hother])
    rw [layOut, ← hsize]
    cases lexemes with
    | nil =>
      have htiling := Token.Tiling.token hproper.spells (.nil (start + lexeme.text.byteSize))
        (by simp)
      simpa [normalForm, layOut] using htiling
    | cons next lexemes =>
      rw [normalForm_cons_cons]
      refine .token hproper.spells (.blank (by decide) (hrest _)) ?_
      -- the next token begins behind the space, so it does not touch this one
      intro token htoken
      rw [Token.join?_eq_none_iff]
      intro a b _ _ htouch
      cases htoken
      simp only at htouch
      omega

theorem normalForm_injective {others : List Lexeme} (h : ∀ lexeme ∈ lexemes, lexeme.Proper)
    (hothers : ∀ lexeme ∈ others, lexeme.Proper) (heq : normalForm others = normalForm lexemes) :
    others = lexemes := by
  have hscan := Token.scanFrom_of_tiling (tiling_normalForm 0 h)
  have hscan' := Token.scanFrom_of_tiling (tiling_normalForm 0 hothers)
  rw [heq, hscan] at hscan'
  rw [← map_lexeme_layOut 0 others, ← Except.ok.inj hscan', map_lexeme_layOut]

end Lexeme

/-! ## Reading a normal form -/

namespace Expression

open Lexeme (normalForm layOut width)

variable {limits : Limits} {lexemes : List Lexeme}

theorem tokens_normalForm (hne : lexemes ≠ []) (hproper : ∀ lexeme ∈ lexemes, lexeme.Proper)
    (hlength : (normalForm lexemes).length ≤ limits.maxLength)
    (hcount : lexemes.length ≤ limits.maxTokens) :
    tokens limits (normalForm lexemes) = .ok (layOut 0 lexemes) := by
  have hlexemes := Lexeme.map_lexeme_layOut 0 lexemes
  refine tokens_of_scan_ok hlength ?_ ?_ ?_
  · exact Token.scanFrom_of_tiling (Lexeme.tiling_normalForm 0 hproper)
  · intro hnil
    rw [hnil] at hlexemes
    exact hne hlexemes.symm
  · rwa [← hlexemes, List.length_map] at hcount

/-- **A normal form is faithful**: proper lexemes, in any order, are read back from it as they are
and each where it was written, and no other proper lexemes have the same normal form. -/
theorem normalForm_faithful (hne : lexemes ≠ []) (hproper : ∀ lexeme ∈ lexemes, lexeme.Proper) :
    (∀ limits : Limits, (normalForm lexemes).length ≤ limits.maxLength →
      lexemes.length ≤ limits.maxTokens →
      ∃ ts, tokens limits (normalForm lexemes) = .ok ts ∧ ts.map Token.lexeme = lexemes ∧
        ∀ i lexeme, lexemes[i]? = some lexeme →
          ts[i]?.map Token.span = some ⟨width (lexemes.take i),
            width (lexemes.take i) + lexeme.text.length⟩) ∧
      ∀ others, (∀ lexeme ∈ others, lexeme.Proper) → normalForm others = normalForm lexemes →
        others = lexemes := by
  refine ⟨?_, fun others hothers heq => Lexeme.normalForm_injective hproper hothers heq⟩
  intro limits hlength hcount
  refine ⟨_, tokens_normalForm hne hproper hlength hcount, Lexeme.map_lexeme_layOut 0 lexemes, ?_⟩
  intro i lexeme hlexeme
  simp [Lexeme.getElem?_layOut, hlexeme]

/-- Two numbers without an operator and two operators without a number, in limits that just do. -/
theorem normalForm_faithful_ungrammatical :
    let lexemes : List Lexeme := [.numeral ⟨.digits, ['0', '7']⟩, .numeral ⟨.roman, ['X', 'I']⟩,
      .operator .plus, .operator .minus, .numeral ⟨.roman, ['M']⟩]
    normalForm lexemes = "07 XI + - M".toList ∧ (∀ lexeme ∈ lexemes, lexeme.Proper) ∧
      ∃ ts, tokens ⟨11, 5⟩ (normalForm lexemes) = .ok ts ∧ ts.map Token.lexeme = lexemes ∧
        ts[4]?.map Token.span = some ⟨10, 11⟩ := by
  intro lexemes
  have hproper : ∀ lexeme ∈ lexemes, lexeme.Proper := by decide
  have hfaithful := (normalForm_faithful (List.cons_ne_nil _ _) hproper).1
  obtain ⟨ts, hts, hlexemes, hspan⟩ := hfaithful ⟨11, 5⟩ (by decide) (by decide)
  exact ⟨rfl, hproper, ts, hts, hlexemes, hspan 4 _ rfl⟩

end Expression

/-! ## The normal form of an expression -/

theorem Token.Tiling.proper {start : Nat} {text : Text} {tokens : List Token}
    (h : Tiling start text tokens) : ∀ token ∈ tokens, token.lexeme.Proper := by
  induction h with
  | nil start => simp
  | blank _ _ ih => exact ih
  | token hspells _ _ ih => exact List.forall_mem_cons.2 ⟨hspells.proper, ih⟩

theorem Lexeme.mem_normalForm {lexemes : List Lexeme} {c : Char} (h : c ∈ normalForm lexemes) :
    c = ' ' ∨ ∃ lexeme ∈ lexemes, c ∈ lexeme.text := by
  induction lexemes with
  | nil => cases h
  | cons lexeme lexemes ih =>
    cases lexemes with
    | nil => exact .inr ⟨lexeme, by simp, by simpa [normalForm] using h⟩
    | cons next lexemes =>
      rw [normalForm_cons_cons, List.mem_append, List.mem_cons] at h
      rcases h with hmem | rfl | hmem
      · exact .inr ⟨lexeme, by simp, hmem⟩
      · exact .inl rfl
      · exact (ih hmem).imp_right fun ⟨other, hother, hc⟩ => ⟨other, by simp [hother], hc⟩

theorem Lexeme.equals_notMem_normalForm {lexemes : List Lexeme}
    (h : ∀ lexeme ∈ lexemes, lexeme.Proper) : '=' ∉ normalForm lexemes := by
  intro hmem
  rcases mem_normalForm hmem with heq | ⟨lexeme, hlexeme, hmem⟩
  · cases heq
  · exact ((h lexeme hlexeme).written _ hmem).ne_equals rfl

theorem isDigit_of_mem_repr {n : Nat} {c : Char} (h : c ∈ n.repr.toList) : c.isDigit := by
  rw [Nat.toList_repr] at h
  exact Nat.isDigit_of_mem_toDigits (by decide) (by decide) h

theorem equals_notMem_toString (n : Int) : '=' ∉ (toString n).toList := by
  have hnat (m : Nat) : '=' ∉ m.repr.toList := fun h => absurd (isDigit_of_mem_repr h) (by decide)
  rw [Int.toString_eq_repr, Int.repr_eq_if]
  split
  · exact hnat _
  · simpa using hnat _

/-- A printed reckoning falls apart at its equals sign in one way only. -/
theorem Reckoning.display_eq_append_iff {reckoning : Reckoning} (h : '=' ∉ reckoning.normalForm)
    (a b : Text) :
    reckoning.display.toList = a ++ '=' :: b ↔
      a = reckoning.normalForm ++ [' '] ∧ b = ' ' :: (toString reckoning.total).toList := by
  have hdisplay : reckoning.display.toList =
      reckoning.normalForm ++ [' '] ++ '=' :: ' ' :: (toString reckoning.total).toList := by
    show (String.ofList reckoning.normalForm ++ " = " ++ toString reckoning.total).toList = _
    simp
  have hfront : '=' ∉ reckoning.normalForm ++ [' '] := by simpa using h
  have hbehind : '=' ∉ ' ' :: (toString reckoning.total).toList := by
    simpa using equals_notMem_toString reckoning.total
  rw [hdisplay, List.append_cons_inj_of_notMem hfront hbehind]
  constructor
  · rintro ⟨rfl, _, rfl⟩
    exact ⟨rfl, rfl⟩
  · rintro ⟨rfl, rfl⟩
    exact ⟨rfl, rfl, rfl⟩

namespace Expression

open Lexeme (normalForm layOut)

variable {limits : Limits} {text : Text} {reckoning : Reckoning}

theorem proper_of_tokens {ts : List Token} (h : tokens limits text = .ok ts) :
    ∀ token ∈ ts, token.lexeme.Proper :=
  (Token.tiling_of_scanFrom (tokens_eq_ok_iff.1 h).2.1).proper

theorem reckon_eq_ok_iff :
    reckon limits text = .ok reckoning ↔
      ∃ ts t, tokens limits text = .ok ts ∧ Token.total ts = .ok t ∧
        reckoning = ⟨text, Token.normalForm ts, t⟩ := by
  unfold reckon
  cases tokens limits text with
  | error rejection => simp [bind, Except.bind]
  | ok ts =>
    cases htotal : Token.total ts with
    | error rejection => simp [bind, Except.bind, htotal]
    | ok t => simp [bind, Except.bind, pure, Except.pure, htotal, eq_comm]

theorem reckon_of_tooLong (h : limits.maxLength < text.length) :
    reckon limits text = .error (Fault.tooLong text.length limits.maxLength).anywhere := by
  rw [reckon, tokens_of_tooLong h]
  rfl

/-- The tokens of a normal form are the ones it was made of, but for their spans, which have no
part in the total. -/
theorem reckon_normalForm_of_length_le {ts : List Token} {t : Int}
    (hts : tokens limits text = .ok ts) (ht : Token.total ts = .ok t)
    (hlength : (Token.normalForm ts).length ≤ limits.maxLength) :
    reckon limits (Token.normalForm ts) =
      .ok ⟨Token.normalForm ts, Token.normalForm ts, t⟩ := by
  obtain ⟨_, hscan, hne, hcount⟩ := tokens_eq_ok_iff.1 hts
  have hproper := List.forall_mem_map.2 (Token.tiling_of_scanFrom hscan).proper
  have hsame := Lexeme.map_lexeme_layOut 0 (ts.map Token.lexeme)
  refine reckon_eq_ok_iff.2 ⟨layOut 0 (ts.map Token.lexeme), t, ?_, ?_, ?_⟩
  · exact tokens_normalForm (by simpa using hne) hproper hlength (by simpa using hcount)
  · exact Token.total_eq_ok_congr hsame.symm ht
  · rw [Token.normalForm, Token.normalForm, hsame]

/-- **A reckoning can be checked again**: its normal form, written lexemes with a space between two,
has itself as normal form and the same total, unless it is too long to be read at all; and in the
printed line the normal form ends at the only equals sign. -/
theorem reckon_normalForm (h : reckon limits text = .ok reckoning) :
    reckoning.source = text ∧
      (∃ ts, tokens limits text = .ok ts ∧
        reckoning.normalForm = [' '].intercalate (ts.map Token.text) ∧
        ∀ token ∈ ts, token.text ≠ [] ∧ ∀ c ∈ token.text, Written c) ∧
      (reckon limits reckoning.normalForm =
        if reckoning.normalForm.length ≤ limits.maxLength then
          .ok ⟨reckoning.normalForm, reckoning.normalForm, reckoning.total⟩
        else
          .error (Fault.tooLong reckoning.normalForm.length limits.maxLength).anywhere) ∧
      ∀ a b : Text, reckoning.display.toList = a ++ '=' :: b ↔
        a = reckoning.normalForm ++ [' '] ∧ b = ' ' :: (toString reckoning.total).toList := by
  obtain ⟨ts, t, hts, ht, rfl⟩ := reckon_eq_ok_iff.1 h
  have hproper := (Token.tiling_of_scanFrom (tokens_eq_ok_iff.1 hts).2.1).proper
  refine ⟨rfl, ⟨ts, hts, ?_, ?_⟩, ?_, ?_⟩
  · rw [Token.normalForm, normalForm, List.map_map]
    rfl
  · exact fun token htoken =>
      ⟨(hproper token htoken).spells.ne_nil, (hproper token htoken).written⟩
  · split
    · next hlength => exact reckon_normalForm_of_length_le hts ht hlength
    · next hlength => exact reckon_of_tooLong (Nat.not_le.1 hlength)
  · exact Reckoning.display_eq_append_iff
      (Lexeme.equals_notMem_normalForm (List.forall_mem_map.2 hproper))

/-- The dotless `ı` and the missing spaces make three characters of what is five in normal form. -/
theorem reckon_normalForm_dotless :
    reckon ⟨5, 3⟩ "ı+1".toList = .ok ⟨"ı+1".toList, "I + 1".toList, 2⟩ ∧
      reckon ⟨5, 3⟩ "I + 1".toList = .ok ⟨"I + 1".toList, "I + 1".toList, 2⟩ ∧
      reckon ⟨4, 3⟩ "ı+1".toList = .ok ⟨"ı+1".toList, "I + 1".toList, 2⟩ ∧
      reckon ⟨4, 3⟩ "I + 1".toList = .error (Fault.tooLong 5 4).anywhere := by
  have hwide : reckon ⟨5, 3⟩ "ı+1".toList = .ok ⟨"ı+1".toList, "I + 1".toList, 2⟩ := rfl
  have hnarrow : reckon ⟨4, 3⟩ "ı+1".toList = .ok ⟨"ı+1".toList, "I + 1".toList, 2⟩ := rfl
  exact ⟨hwide, (reckon_normalForm hwide).2.2.1, hnarrow, (reckon_normalForm hnarrow).2.2.1⟩

end Expression

end RomanInvoice
