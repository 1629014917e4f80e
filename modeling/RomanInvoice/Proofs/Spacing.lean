import Mathlib.Logic.Relation
import RomanInvoice.Proofs.Limits
import RomanInvoice.Proofs.Total

/-!
# Spacing — what the way of writing cannot change

An expression may be written with other spellings of its Roman letters and with more or fewer
blanks, as long as no number is cut in two and no two are run together. `Edit` lists these changes.
They leave the reading of a text as it is, that is its lexemes or its fault; and all that comes
after the reading depends on the lexemes alone, so only spans can tell one way of writing from
another.
-/

namespace RomanInvoice

/-- Figures of one number, if they stand next to each other. -/
def SameScript (c d : Char) : Prop :=
  c.isDigit ∧ d.isDigit ∨ (Roman.Letter.ofSpelling? c).isSome ∧ (Roman.Letter.ofSpelling? d).isSome

/-- Whether the place between two texts is not inside of a number. -/
def BetweenNumbers (a b : Text) : Prop :=
  ∀ c ∈ a.getLast?, ∀ d ∈ b.head?, ¬ SameScript c d

/-- A change in the way in which an expression is written. -/
inductive Edit : Text → Text → Prop where
  /-- A Roman letter is spelled in another way. -/
  | respell {a b : Text} {c d : Char} {letter : Roman.Letter} :
    Roman.Letter.ofSpelling? c = some letter → Roman.Letter.ofSpelling? d = some letter →
    Edit (a ++ c :: b) (a ++ d :: b)
  /-- A blank is replaced by blanks. -/
  | replace {a b blanks : Text} {c : Char} : isBlank c → blanks ≠ [] → (∀ d ∈ blanks, isBlank d) →
    Edit (a ++ c :: b) (a ++ (blanks ++ b))
  | insert {a b blanks : Text} : (∀ d ∈ blanks, isBlank d) → BetweenNumbers a b →
    Edit (a ++ b) (a ++ (blanks ++ b))
  | delete {a b blanks : Text} : (∀ d ∈ blanks, isBlank d) → BetweenNumbers a b →
    Edit (a ++ (blanks ++ b)) (a ++ b)

theorem sameScript_iff {c d : Char} :
    SameScript c d ↔ ∃ script, Script.ofChar? c = some script ∧ Script.ofChar? d = some script := by
  simp only [SameScript, ← Script.ofChar?_eq_digits_iff, ← Script.ofChar?_eq_roman_iff]
  constructor
  · rintro (h | h)
    · exact ⟨.digits, h⟩
    · exact ⟨.roman, h⟩
  · rintro ⟨script, h⟩
    cases script with
    | digits => exact .inl h
    | roman => exact .inr h

/-! ## The reading of a text -/

namespace Lexeme

/-- Puts a figure before lexemes: into the numeral at their front, if it touches one of its script,
and else alone. -/
def putFigure (script : Script) (c : Char) (touched? : Option Script) :
    List Lexeme → List Lexeme
  | numeral n :: lexemes =>
    if touched? = some script then numeral ⟨script, c :: n.text⟩ :: lexemes
    else numeral ⟨script, [c]⟩ :: numeral n :: lexemes
  | lexemes => numeral ⟨script, [c]⟩ :: lexemes

/-- What a character makes of the reading behind it, given the script of the figure it touches. -/
def readChar (c : Char) (touched? : Option Script) (reading : Except Fault (List Lexeme)) :
    Except Fault (List Lexeme) :=
  match Glyph.ofChar? c with
  | none => .error (.illegalChar c)
  | some .blank => reading
  | some (.operator op) => reading.map (operator op :: ·)
  | some (.figure script d) => reading.map (putFigure script d touched?)

section ReadChar

variable {c d : Char} {touched? : Option Script} {reading : Except Fault (List Lexeme)}

theorem putFigure_of_ne {script : Script} {lexemes : List Lexeme} (h : touched? ≠ some script) :
    putFigure script c touched? lexemes = numeral ⟨script, [c]⟩ :: lexemes := by
  unfold putFigure
  split
  · exact if_neg h
  · rfl

theorem readChar_of_isBlank (h : isBlank c) : readChar c touched? reading = reading := by
  rw [readChar, Glyph.ofChar?_eq_blank_iff.2 h]

/-- Of a letter only what it spells is read. -/
theorem readChar_of_ofSpelling? {letter : Roman.Letter}
    (hc : Roman.Letter.ofSpelling? c = some letter)
    (hd : Roman.Letter.ofSpelling? d = some letter) :
    readChar c touched? reading = readChar d touched? reading := by
  rw [readChar, readChar, Glyph.ofChar?_of_ofSpelling? hc, Glyph.ofChar?_of_ofSpelling? hd]

/-- What a character touches matters only if the two are figures of one number. -/
theorem readChar_of_ne (h : ∀ script, Script.ofChar? c = some script → touched? ≠ some script) :
    readChar c touched? reading = readChar c none reading := by
  unfold readChar
  split
  · rfl
  · rfl
  · rfl
  · next script d hc =>
    have hne := h script (Script.ofChar?_eq_some_iff.2 ⟨d, hc⟩)
    have heq : putFigure script d touched? = putFigure script d none := by
      funext lexemes
      rw [putFigure_of_ne hne, putFigure_of_ne (Option.some_ne_none script).symm]
    rw [heq]

end ReadChar

end Lexeme

namespace Token

/-- What is read, or why it is refused, without the spans. -/
def withoutSpans : Except Rejection (List Token) → Except Fault (List Lexeme)
  | .ok tokens => .ok (tokens.map lexeme)
  | .error rejection => .error rejection.fault

theorem Tiling.map_lexeme_attach {start stop : Nat} {text : Text} {tokens : List Token}
    {script : Script} {c : Char} (h : Tiling stop text tokens) :
    (attach ⟨.numeral ⟨script, [c]⟩, ⟨start, stop⟩⟩ tokens).map lexeme =
      Lexeme.putFigure script c (text.head?.bind Script.ofChar?) (tokens.map lexeme) := by
  by_cases htouch : text.head?.bind Script.ofChar? = some script
  · obtain ⟨figures, span, behind, rfl, hstart⟩ := h.head_script_iff.1 htouch
    simp [htouch, attach, join?, hstart, Lexeme.putFigure]
  · have hapart : ∀ next ∈ tokens.head?,
        join? ⟨.numeral ⟨script, [c]⟩, ⟨start, stop⟩⟩ next = none := by
      refine h.join?_head_eq_none_iff.2 ?_
      rintro _ ⟨⟩
      exact htouch
    rw [attach_of_join?_eq_none hapart, List.map_cons, Lexeme.putFigure_of_ne htouch]

/-- One step of the scanner, without the spans. -/
theorem withoutSpans_scanFrom_cons (start : Nat) (c : Char) (text : Text) :
    withoutSpans (scanFrom start (c :: text)) =
      Lexeme.readChar c (text.head?.bind Script.ofChar?)
        (withoutSpans (scanFrom (start + c.utf8Size) text)) := by
  unfold Lexeme.readChar
  split
  · next hc =>
    rw [scanFrom_illegal (Glyph.ofChar?_eq_none_iff.1 hc)]
    rfl
  · next hc => rw [scanFrom_blank (Glyph.ofChar?_eq_blank_iff.1 hc)]
  · next op hc =>
    obtain rfl := Glyph.ofChar?_eq_operator_iff.1 hc
    rw [scanFrom_operator]
    cases scanFrom (start + op.toChar.utf8Size) text <;> rfl
  · next script d hc =>
    rw [scanFrom_figure hc]
    cases hscan : scanFrom (start + c.utf8Size) text with
    | error rejection => rfl
    | ok tokens => exact congrArg Except.ok (tiling_of_scanFrom hscan).map_lexeme_attach

/-- Where a text begins is seen in the spans alone. -/
theorem withoutSpans_scanFrom_congr (start start' : Nat) (text : Text) :
    withoutSpans (scanFrom start text) = withoutSpans (scanFrom start' text) := by
  induction text generalizing start start' with
  | nil => rfl
  | cons c text ih =>
    rw [withoutSpans_scanFrom_cons, withoutSpans_scanFrom_cons, ih]

end Token

namespace Text

/-- The lexemes of a text, or why it has none. -/
def reading (text : Text) : Except Fault (List Lexeme) :=
  Token.withoutSpans (Token.scan text)

theorem reading_cons (c : Char) (text : Text) :
    reading (c :: text) =
      Lexeme.readChar c (text.head?.bind Script.ofChar?) text.reading := by
  rw [reading, Token.scan, Token.withoutSpans_scanFrom_cons]
  rw [Token.withoutSpans_scanFrom_congr _ 0]
  rfl

theorem reading_blanks {blanks text : Text} (h : ∀ c ∈ blanks, isBlank c) :
    reading (blanks ++ text) = reading text := by
  induction blanks with
  | nil => rfl
  | cons c blanks ih =>
    rw [List.forall_mem_cons] at h
    rw [List.cons_append, reading_cons, Lexeme.readChar_of_isBlank h.1, ih h.2]

end Text

/-! ## Texts that are read alike -/

/-- Texts that cannot be told from each other by what is read before them. -/
structure Alike (a b : Text) : Prop where
  head : a.head?.bind Script.ofChar? = b.head?.bind Script.ofChar?
  reading : a.reading = b.reading

namespace Alike

variable {a b blanks : Text} {c d : Char}

theorem append_left (front : Text) (h : Alike a b) : Alike (front ++ a) (front ++ b) := by
  induction front with
  | nil => exact h
  | cons c front ih =>
    refine ⟨rfl, ?_⟩
    rw [List.cons_append, List.cons_append, Text.reading_cons, Text.reading_cons, ih.head,
      ih.reading]

theorem of_ofSpelling? {letter : Roman.Letter} (hc : Roman.Letter.ofSpelling? c = some letter)
    (hd : Roman.Letter.ofSpelling? d = some letter) : Alike (c :: b) (d :: b) := by
  refine ⟨?_, ?_⟩
  · have hc' : Script.ofChar? c = some .roman := Script.ofChar?_eq_roman_iff.2 (by simp [hc])
    have hd' : Script.ofChar? d = some .roman := Script.ofChar?_eq_roman_iff.2 (by simp [hd])
    rw [List.head?_cons, List.head?_cons, Option.bind_some, Option.bind_some, hc', hd']
  · rw [Text.reading_cons, Text.reading_cons, Lexeme.readChar_of_ofSpelling? hc hd]

theorem of_blanks (hc : isBlank c) (hne : blanks ≠ []) (h : ∀ d ∈ blanks, isBlank d) :
    Alike (c :: b) (blanks ++ b) := by
  refine ⟨?_, by rw [Text.reading_cons, Lexeme.readChar_of_isBlank hc, Text.reading_blanks h]⟩
  obtain ⟨d, blanks, rfl⟩ := List.exists_cons_of_ne_nil hne
  rw [List.forall_mem_cons] at h
  simp [Script.ofChar?_of_isBlank hc, Script.ofChar?_of_isBlank h.1]

/-- A character stands apart from what is behind it, with or without blanks in between. -/
theorem cons_blanks (h : ∀ d ∈ blanks, isBlank d)
    (hbetween : ∀ d ∈ b.head?, ¬ SameScript c d) : Alike (c :: b) (c :: (blanks ++ b)) := by
  cases blanks with
  | nil => exact ⟨rfl, rfl⟩
  | cons d blanks =>
    have hd : (d :: blanks ++ b).head?.bind Script.ofChar? = none :=
      Script.ofChar?_of_isBlank (h d List.mem_cons_self)
    have hapart : ∀ script, Script.ofChar? c = some script →
        b.head?.bind Script.ofChar? ≠ some script := by
      intro script hc hhead
      obtain ⟨x, hx, hscript⟩ := Option.bind_eq_some_iff.1 hhead
      exact hbetween x hx (sameScript_iff.2 ⟨script, hc, hscript⟩)
    refine ⟨rfl, ?_⟩
    rw [Text.reading_cons, Text.reading_cons, Text.reading_blanks h, hd,
      Lexeme.readChar_of_ne hapart]

end Alike

theorem Text.reading_insert {a b blanks : Text} (h : ∀ d ∈ blanks, isBlank d)
    (hbetween : BetweenNumbers a b) : reading (a ++ b) = reading (a ++ (blanks ++ b)) := by
  rcases List.eq_nil_or_concat a with rfl | ⟨front, c, rfl⟩
  · rw [List.nil_append, List.nil_append, reading_blanks h]
  · have halike : Alike (c :: b) (c :: (blanks ++ b)) := .cons_blanks h (hbetween c (by simp))
    rw [List.concat_eq_append, List.append_assoc, List.append_assoc]
    exact (halike.append_left front).reading

/-- **One edit**: the reading of a text stays what it is. -/
theorem Edit.reading_eq {a b : Text} (h : Edit a b) : a.reading = b.reading := by
  cases h with
  | @respell a b c d letter hc hd =>
    exact ((Alike.of_ofSpelling? hc hd).append_left a).reading
  | @replace a b blanks c hc hne hblank =>
    exact ((Alike.of_blanks hc hne hblank).append_left a).reading
  | insert hblank hbetween => exact Text.reading_insert hblank hbetween
  | delete hblank hbetween => exact (Text.reading_insert hblank hbetween).symm

/-- **A run of edits**. -/
theorem reading_eq_of_edits {a b : Text} (h : Relation.ReflTransGen Edit a b) :
    a.reading = b.reading := by
  induction h with
  | refl => rfl
  | tail _ hedit ih => exact ih.trans hedit.reading_eq

/-! ## All that is made of a reading -/

/-- The lexemes of a reading, if there are some and not too many. -/
def Limits.admit (limits : Limits) : Except Fault (List Lexeme) → Except Fault (List Lexeme)
  | .error fault => .error fault
  | .ok lexemes =>
    if lexemes = [] then .error .empty
    else if limits.maxTokens < lexemes.length then
      .error (.tooManyTokens lexemes.length limits.maxTokens)
    else .ok lexemes

namespace Expression

section Reading

variable {limits : Limits} {a b text : Text}

theorem withoutSpans_tokens (h : text.length ≤ limits.maxLength) :
    Token.withoutSpans (tokens limits text) = limits.admit text.reading := by
  unfold Text.reading
  cases hscan : Token.scan text with
  | error rejection =>
    rw [tokens_of_scan_error h hscan]
    rfl
  | ok ts =>
    by_cases hne : ts = []
    · subst hne
      rw [tokens_of_scan_nil h hscan]
      rfl
    by_cases hcount : limits.maxTokens < ts.length
    · rw [tokens_of_excess h hscan hcount]
      simp [Token.withoutSpans, Limits.admit, hne, hcount, Fault.inSpan]
    · rw [tokens_of_scan_ok h hscan hne (Nat.not_lt.1 hcount)]
      simp [Token.withoutSpans, Limits.admit, hne, hcount]

theorem normalForm_of_withoutSpans (result : Except Rejection (List Token)) :
    (result.map Token.normalForm).mapError Rejection.fault =
      (Token.withoutSpans result).map Lexeme.normalForm := by
  cases result <;> rfl

/-- The total depends on the lexemes, and its fault too. -/
theorem total_congr_of_withoutSpans
    (h : Token.withoutSpans (tokens limits a) = Token.withoutSpans (tokens limits b)) :
    (total limits a).mapError Rejection.fault = (total limits b).mapError Rejection.fault := by
  cases ha : tokens limits a with
  | error rejection =>
    cases hb : tokens limits b with
    | error other =>
      rw [ha, hb] at h
      rw [total_of_tokens_error ha, total_of_tokens_error hb]
      exact congrArg Except.error (Except.error.inj h)
    | ok us =>
      rw [ha, hb] at h
      cases h
  | ok ts =>
    cases hb : tokens limits b with
    | error other =>
      rw [ha, hb] at h
      cases h
    | ok us =>
      rw [ha, hb] at h
      rw [total_of_tokens ha, total_of_tokens hb]
      exact Token.total_congr (Except.ok.inj h)

end Reading

/-- **Spelling and spacing do not matter**: texts that come from each other by edits and are both
short enough have the same lexemes, the same normal form and the same total, or are refused with the
same fault and the same data of it. -/
theorem outcome_of_edits (limits : Limits) (a b : Text) (h : Relation.ReflTransGen Edit a b)
    (ha : a.length ≤ limits.maxLength) (hb : b.length ≤ limits.maxLength) :
    Token.withoutSpans (tokens limits a) = Token.withoutSpans (tokens limits b) ∧
      ((tokens limits a).map Token.normalForm).mapError Rejection.fault =
        ((tokens limits b).map Token.normalForm).mapError Rejection.fault ∧
      (total limits a).mapError Rejection.fault = (total limits b).mapError Rejection.fault := by
  have htokens : Token.withoutSpans (tokens limits a) = Token.withoutSpans (tokens limits b) := by
    rw [withoutSpans_tokens ha, withoutSpans_tokens hb, reading_eq_of_edits h]
  refine ⟨htokens, ?_, total_congr_of_withoutSpans htokens⟩
  rw [normalForm_of_withoutSpans, normalForm_of_withoutSpans, htokens]

/-- A dotless letter is respelled, the blank behind it becomes two, and one is put before a sign:
the four tokens are too many or, with one more allowed, not in order. -/
theorem outcome_of_edits_dotless :
    Token.withoutSpans (tokens ⟨7, 3⟩ "ı 3-x".toList) =
        Token.withoutSpans (tokens ⟨7, 3⟩ "I\u3000\t3 -x".toList) ∧
      (total ⟨7, 4⟩ "ı 3-x".toList).mapError Rejection.fault =
        (total ⟨7, 4⟩ "I\u3000\t3 -x".toList).mapError Rejection.fault ∧
      total ⟨7, 4⟩ "ı 3-x".toList = .error ((Fault.operatorExpected ['3']).inSpan ⟨3, 4⟩) := by
  have hrespell : Edit ([] ++ 'ı' :: [' ', '3', '-', 'x']) ([] ++ 'I' :: [' ', '3', '-', 'x']) :=
    .respell rfl rfl
  have hreplace : Edit (['I'] ++ ' ' :: ['3', '-', 'x'])
      (['I'] ++ (['\u3000', '\t'] ++ ['3', '-', 'x'])) :=
    .replace rfl (List.cons_ne_nil _ _) (List.all_eq_true.1 rfl)
  have hbetween : BetweenNumbers ['I', '\u3000', '\t', '3'] ['-', 'x'] := by
    rintro c ⟨⟩ d ⟨⟩ (⟨_, hd⟩ | ⟨hc, _⟩)
    · cases hd
    · cases hc
  have hinsert : Edit (['I', '\u3000', '\t', '3'] ++ ['-', 'x'])
      (['I', '\u3000', '\t', '3'] ++ ([' '] ++ ['-', 'x'])) :=
    .insert (List.all_eq_true.1 rfl) hbetween
  have hedits : Relation.ReflTransGen Edit ['ı', ' ', '3', '-', 'x']
      ['I', '\u3000', '\t', '3', ' ', '-', 'x'] :=
    ((Relation.ReflTransGen.single hrespell).tail hreplace).tail hinsert
  exact ⟨(outcome_of_edits ⟨7, 3⟩ _ _ hedits (by decide) (by decide)).1,
    (outcome_of_edits ⟨7, 4⟩ _ _ hedits (by decide) (by decide)).2.2, rfl⟩

end Expression

end RomanInvoice
