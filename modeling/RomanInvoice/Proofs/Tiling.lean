import RomanInvoice.Proofs.Number

/-!
# Tilings — what the scanner answers

A tiling lays a text out as blanks and runs of characters that write lexemes, in such a way that no
two numerals of one script touch. The scanner works backwards from the end of the text and joins
each figure with the numeral behind it; `Token.scanFrom_eq_ok_iff` says that it answers exactly
with the tiling of its text, and `Token.scanFrom_eq_error_iff` that it fails exactly at the first
character that belongs to no tiling.
-/

namespace RomanInvoice

theorem Text.byteSize_pos {text : Text} (h : text ≠ []) : 0 < text.byteSize := by
  cases text with
  | nil => exact absurd rfl h
  | cons c text =>
    have hpos := c.utf8Size_pos
    rw [byteSize_cons]
    omega

/-- The runs of characters that write a lexeme. -/
inductive Lexeme.Spells : Text → Lexeme → Prop where
  | operator (op : Operator) : Spells [op.toChar] (.operator op)
  | number {run : Text} {number : Number} :
    number.Spells run → Spells run (.numeral number.numeral)

namespace Lexeme.Spells

variable {run : Text} {lexeme : Lexeme}

/-- A run of figures of one script writes a numeral. -/
theorem of_figures {script : Script} {figures : Text} (hne : run ≠ [])
    (h : Figures script run figures) : (Lexeme.numeral ⟨script, figures⟩).Spells run := by
  obtain ⟨number, hspells, heq⟩ := Number.Spells.exists_of_figures hne h
  rw [← heq]
  exact .number hspells

theorem ne_nil (h : lexeme.Spells run) : run ≠ [] := by
  cases h with
  | operator op => simp
  | number hnumber => exact hnumber.ne_nil

theorem exists_number {numeral : Numeral} (h : (Lexeme.numeral numeral).Spells run) :
    ∃ number : Number, number.numeral = numeral ∧ number.Spells run := by
  generalize heq : Lexeme.numeral numeral = lexeme at h
  cases h with
  | operator op => cases heq
  | number hnumber =>
    cases heq
    exact ⟨_, rfl, hnumber⟩

theorem figures {numeral : Numeral} (h : (Lexeme.numeral numeral).Spells run) :
    Figures numeral.script run numeral.text := by
  obtain ⟨number, rfl, hnumber⟩ := h.exists_number
  exact hnumber.figures

/-- A lexeme that is written with a figure is a numeral in the script of the figure. -/
theorem exists_numeral {c : Char} {script : Script} (h : lexeme.Spells run) (hc : c ∈ run)
    (hscript : Script.ofChar? c = some script) :
    ∃ figures, lexeme = .numeral ⟨script, figures⟩ := by
  cases h with
  | operator op =>
    rw [List.mem_singleton.1 hc, Script.ofChar?_toChar] at hscript
    cases hscript
  | number hnumber =>
    rw [hnumber.figures.ofChar?_eq c hc] at hscript
    cases hscript
    exact ⟨_, rfl⟩

/-- A run that writes the numeral of a number writes the number. -/
theorem number_spells {number : Number} (h : (Lexeme.numeral number.numeral).Spells run) :
    number.Spells run := by
  obtain ⟨number', heq, hnumber⟩ := h.exists_number
  rw [← Number.numeral_injective heq]
  exact hnumber

theorem isBlank_eq_false (h : lexeme.Spells run) : ∀ c ∈ run, isBlank c = false := by
  cases h with
  | operator op =>
    intro c hc
    rw [List.mem_singleton.1 hc]
    exact op.isBlank_toChar
  | number hnumber => exact hnumber.figures.isBlank_eq_false

/-- A lexeme is written as its run, with Roman letters as capitals. -/
theorem text_eq (h : lexeme.Spells run) : lexeme.text = run.map Roman.capitalized := by
  cases h with
  | operator op => rw [List.map_singleton, op.capitalized_toChar, Lexeme.text]
  | number hnumber => exact hnumber.figures.eq_map_capitalized

end Lexeme.Spells

namespace Token

/-- `Tiling start text tokens`: the text, which begins at byte `start`, consists of the tokens in
this order with blanks around them, and each numeral is as long as it can be. -/
inductive Tiling : Nat → Text → List Token → Prop where
  | nil (start : Nat) : Tiling start [] []
  | blank {start : Nat} {c : Char} {text : Text} {tokens : List Token} :
    isBlank c → Tiling (start + c.utf8Size) text tokens → Tiling start (c :: text) tokens
  | token {start : Nat} {run rest : Text} {lexeme : Lexeme} {tokens : List Token} :
    lexeme.Spells run → Tiling (start + run.byteSize) rest tokens →
    (∀ next ∈ tokens.head?, join? ⟨lexeme, ⟨start, start + run.byteSize⟩⟩ next = none) →
    Tiling start (run ++ rest) (⟨lexeme, ⟨start, start + run.byteSize⟩⟩ :: tokens)

/-! ## Joining -/

section Join

variable {first second token : Token} {tokens : List Token}

theorem join?_eq_none_iff :
    first.join? second = none ↔
      ∀ a b, first.lexeme = .numeral a → second.lexeme = .numeral b →
        first.span.stop = second.span.start → a.script ≠ b.script := by
  obtain ⟨_ | a, span⟩ := first
  · simp [join?]
  obtain ⟨_ | b, span'⟩ := second
  · simp [join?]
  · simp [join?]

theorem join?_eq_some_iff {joined : Token} :
    first.join? second = some joined ↔
      ∃ script a b, first.lexeme = .numeral ⟨script, a⟩ ∧ second.lexeme = .numeral ⟨script, b⟩ ∧
        first.span.stop = second.span.start ∧
        joined = ⟨.numeral ⟨script, a ++ b⟩, first.span.through second.span⟩ := by
  obtain ⟨_ | ⟨script, a⟩, span⟩ := first
  · simp [join?]
  obtain ⟨_ | ⟨script', b⟩, span'⟩ := second
  · simp [join?]
  constructor
  · intro h
    simp only [join?, Option.ite_none_right_eq_some, Option.some.injEq] at h
    obtain ⟨⟨htouch, rfl⟩, rfl⟩ := h
    exact ⟨script, a, b, rfl, rfl, htouch, rfl⟩
  · intro h
    obtain ⟨script'', a', b', ha, hb, htouch, rfl⟩ := h
    cases ha
    cases hb
    exact if_pos ⟨htouch, rfl⟩

/-- Whether a numeral is joined with what is behind it depends on its script and its end only. -/
theorem join?_eq_none_of_stop_eq {script : Script} {a b : Text} {span span' : Span}
    (h : join? ⟨.numeral ⟨script, a⟩, span⟩ second = none) (hstop : span.stop = span'.stop) :
    join? ⟨.numeral ⟨script, b⟩, span'⟩ second = none := by
  rw [join?_eq_none_iff] at h ⊢
  intro x y hx hy htouch
  cases hx
  exact h ⟨script, a⟩ y rfl hy (hstop.trans htouch)

theorem attach_of_join?_eq_none
    (h : ∀ next ∈ tokens.head?, token.join? next = none) :
    token.attach tokens = token :: tokens := by
  cases tokens with
  | nil => rfl
  | cons next tokens => rw [attach, h next rfl]

/-- An operator is joined with nothing behind it. -/
theorem attach_operator (op : Operator) (span : Span) (tokens : List Token) :
    attach ⟨.operator op, span⟩ tokens = ⟨.operator op, span⟩ :: tokens :=
  attach_of_join?_eq_none fun _ _ => rfl

end Join

/-! ## One step of the scanner -/

section Step

variable {start : Nat} {c : Char} {text : Text}

theorem scanFrom_blank (h : isBlank c) :
    scanFrom start (c :: text) = scanFrom (start + c.utf8Size) text := by
  rw [scanFrom, Glyph.ofChar?_eq_blank_iff.2 h]
  cases scanFrom (start + c.utf8Size) text <;> rfl

theorem scanFrom_operator (op : Operator) :
    scanFrom start (op.toChar :: text) =
      (scanFrom (start + op.toChar.utf8Size) text).map fun tokens =>
        ⟨.operator op, ⟨start, start + op.toChar.utf8Size⟩⟩ :: tokens := by
  rw [scanFrom, Glyph.ofChar?_toChar]
  cases scanFrom (start + op.toChar.utf8Size) text with
  | error => rfl
  | ok tokens => exact congrArg Except.ok (attach_operator op _ tokens)

theorem scanFrom_figure {script : Script} {d : Char}
    (h : Glyph.ofChar? c = some (.figure script d)) :
    scanFrom start (c :: text) =
      (scanFrom (start + c.utf8Size) text).map
        (attach ⟨.numeral ⟨script, [d]⟩, ⟨start, start + c.utf8Size⟩⟩) := by
  rw [scanFrom, h]
  cases scanFrom (start + c.utf8Size) text <;> rfl

theorem scanFrom_illegal (h : ¬ Legal c) :
    scanFrom start (c :: text) =
      .error ((Fault.illegalChar c).inSpan ⟨start, start + c.utf8Size⟩) := by
  rw [scanFrom, Glyph.ofChar?_eq_none_iff.2 h]

end Step

/-! ## The scanner answers with a tiling -/

theorem Tiling.start_le {start : Nat} {text : Text} {tokens : List Token}
    (h : Tiling start text tokens) : ∀ token ∈ tokens, start ≤ token.span.start := by
  induction h with
  | nil start => simp
  | blank _ _ ih =>
    intro token ht
    have := ih token ht
    omega
  | token _ _ _ ih =>
    intro token ht
    rcases List.mem_cons.1 ht with rfl | ht
    · exact Nat.le_refl _
    · have := ih token ht
      omega

/-- A figure before a tiled text begins a numeral of its own, or lengthens the one it touches. -/
theorem Tiling.attach_figure {start : Nat} {c d : Char} {script : Script} {text : Text}
    {tokens : List Token} (hc : Glyph.ofChar? c = some (.figure script d))
    (h : Tiling (start + c.utf8Size) text tokens) :
    Tiling start (c :: text)
      (attach ⟨.numeral ⟨script, [d]⟩, ⟨start, start + c.utf8Size⟩⟩ tokens) := by
  have hfigure : Figures script [c] [d] := by simp [Figures, hc]
  have halone (hjoin : ∀ next ∈ tokens.head?,
      join? ⟨.numeral ⟨script, [d]⟩, ⟨start, start + c.utf8Size⟩⟩ next = none) :
      Tiling start ([c] ++ text)
        (attach ⟨.numeral ⟨script, [d]⟩, ⟨start, start + c.utf8Size⟩⟩ tokens) := by
    rw [attach_of_join?_eq_none hjoin]
    exact .token (.of_figures (List.cons_ne_nil c []) hfigure) h hjoin
  cases tokens with
  | nil => exact halone (by simp)
  | cons next tokens =>
    cases hjoin : join? ⟨.numeral ⟨script, [d]⟩, ⟨start, start + c.utf8Size⟩⟩ next with
    | none => exact halone (by simpa using hjoin)
    | some joined =>
      have hattach : attach ⟨.numeral ⟨script, [d]⟩, ⟨start, start + c.utf8Size⟩⟩
          (next :: tokens) = joined :: tokens := by rw [attach, hjoin]
      obtain ⟨script', a, figures, ha, hfigures, htouch, rfl⟩ := join?_eq_some_iff.1 hjoin
      cases ha
      rw [hattach]
      cases h with
      | blank _ hrest =>
        -- the numeral begins behind the blank, so it does not touch the figure
        have hstart := hrest.start_le next (by simp)
        have hpos := Char.utf8Size_pos ‹Char›
        simp only at htouch
        omega
      | @token _ run rest _ _ hspells hrest hnone =>
        cases hfigures
        have hrun : Figures script (c :: run) (d :: figures) :=
          Figures.cons_iff.2 ⟨d, figures, rfl, hc, hspells.figures⟩
        have hstop : start + c.utf8Size + run.byteSize = start + Text.byteSize (c :: run) := by
          rw [Text.byteSize_cons]
          omega
        rw [hstop] at hrest hnone
        simp only [Span.through, hstop]
        exact .token (.of_figures (List.cons_ne_nil c run) hrun) hrest fun next hnext =>
          join?_eq_none_of_stop_eq (hnone next hnext) rfl

theorem exists_of_map_eq_ok {α β ε : Type} {x : Except ε α} {f : α → β} {b : β}
    (h : x.map f = .ok b) : ∃ a, x = .ok a ∧ f a = b := by
  cases x with
  | error => cases h
  | ok a => exact ⟨a, rfl, Except.ok.inj h⟩

theorem tiling_of_scanFrom {start : Nat} {text : Text} {tokens : List Token}
    (h : scanFrom start text = .ok tokens) : Tiling start text tokens := by
  -- the rest of the text is read before its first character, so the tiling grows at its front
  induction text generalizing start tokens with
  | nil =>
    cases h
    exact .nil start
  | cons c text ih =>
    cases hglyph : Glyph.ofChar? c with
    | none =>
      rw [scanFrom_illegal (Glyph.ofChar?_eq_none_iff.1 hglyph)] at h
      cases h
    | some glyph =>
      cases glyph with
      | blank =>
        have hc := Glyph.ofChar?_eq_blank_iff.1 hglyph
        rw [scanFrom_blank hc] at h
        exact .blank hc (ih h)
      | operator op =>
        have hc := Glyph.ofChar?_eq_operator_iff.1 hglyph
        subst hc
        rw [scanFrom_operator] at h
        obtain ⟨rest, hrest, rfl⟩ := exists_of_map_eq_ok h
        exact .token (.operator op) (ih hrest) fun _ _ => rfl
      | figure script d =>
        rw [scanFrom_figure hglyph] at h
        obtain ⟨rest, hrest, rfl⟩ := exists_of_map_eq_ok h
        exact (ih hrest).attach_figure hglyph

/-- A run of figures is read as one numeral where the rest does not continue it. -/
theorem scanFrom_figures {start : Nat} {script : Script} {run figures rest : Text}
    {tokens : List Token} (hne : run ≠ []) (hrun : Figures script run figures)
    (hrest : scanFrom (start + run.byteSize) rest = .ok tokens)
    (hjoin : ∀ next ∈ tokens.head?,
      join? ⟨.numeral ⟨script, figures⟩, ⟨start, start + run.byteSize⟩⟩ next = none) :
    scanFrom start (run ++ rest) =
      .ok (⟨.numeral ⟨script, figures⟩, ⟨start, start + run.byteSize⟩⟩ :: tokens) := by
  induction run generalizing start figures with
  | nil => exact absurd rfl hne
  | cons c run ih =>
    obtain ⟨d, figures, rfl, hc, hrun⟩ := Figures.cons_iff.1 hrun
    have hstop : start + Text.byteSize (c :: run) = start + c.utf8Size + Text.byteSize run := by
      rw [Text.byteSize_cons]
      omega
    rw [hstop] at hrest hjoin ⊢
    rw [List.cons_append, scanFrom_figure hc]
    -- the last figure stays alone, and every other one is joined with the numeral behind it
    cases run with
    | nil =>
      rw [Figures.nil_iff] at hrun
      subst hrun
      rw [show scanFrom (start + c.utf8Size) ([] ++ rest) = .ok tokens from hrest]
      exact congrArg Except.ok (attach_of_join?_eq_none hjoin)
    | cons c' run =>
      rw [ih (List.cons_ne_nil c' run) hrun hrest fun next hnext =>
        join?_eq_none_of_stop_eq (hjoin next hnext) rfl]
      simp [Except.map, attach, join?, Span.through]

theorem scanFrom_of_tiling {start : Nat} {text : Text} {tokens : List Token}
    (h : Tiling start text tokens) : scanFrom start text = .ok tokens := by
  induction h with
  | nil start => rfl
  | blank hc _ ih => rw [scanFrom_blank hc, ih]
  | @token start run rest lexeme tokens hspells hrest hjoin ih =>
    cases hspells with
    | operator op =>
      rw [List.singleton_append, scanFrom_operator]
      rw [show scanFrom (start + op.toChar.utf8Size) rest = .ok tokens from ih]
      rfl
    | number hnumber => exact scanFrom_figures hnumber.ne_nil hnumber.figures ih hjoin

/-- **Tilings are what the scanner finds**: a text is scanned into the tokens that tile it. -/
theorem scanFrom_eq_ok_iff {start : Nat} {text : Text} {tokens : List Token} :
    scanFrom start text = .ok tokens ↔ Tiling start text tokens :=
  ⟨tiling_of_scanFrom, scanFrom_of_tiling⟩

/-! ## The scanner fails at the first illegal character -/

theorem scanFrom_cons_eq_error_iff {start : Nat} {c : Char} {text : Text} {rejection : Rejection}
    (h : Legal c) :
    scanFrom start (c :: text) = .error rejection ↔
      scanFrom (start + c.utf8Size) text = .error rejection := by
  cases hglyph : Glyph.ofChar? c with
  | none => exact absurd h (Glyph.ofChar?_eq_none_iff.1 hglyph)
  | some glyph =>
    rw [scanFrom, hglyph]
    cases scanFrom (start + c.utf8Size) text <;> simp [bind, Except.bind, pure, Except.pure]

theorem scanFrom_eq_error_iff {start : Nat} {text : Text} {rejection : Rejection} :
    scanFrom start text = .error rejection ↔
      ∃ (a : Text) (c : Char) (b : Text), text = a ++ c :: b ∧ (∀ d ∈ a, Legal d) ∧ ¬ Legal c ∧
        rejection = (Fault.illegalChar c).inSpan
          ⟨start + a.byteSize, start + a.byteSize + c.utf8Size⟩ := by
  induction text generalizing start with
  | nil => simp [scanFrom]
  | cons c text ih =>
    by_cases hc : Legal c
    · rw [scanFrom_cons_eq_error_iff hc, ih]
      constructor
      · intro h
        obtain ⟨a, d, b, rfl, ha, hd, rfl⟩ := h
        refine ⟨c :: a, d, b, rfl, ?_, hd, ?_⟩
        · intro x hx
          rcases List.mem_cons.1 hx with rfl | hx
          · exact hc
          · exact ha x hx
        · simp [Nat.add_assoc]
      · intro h
        obtain ⟨a, d, b, htext, ha, hd, rfl⟩ := h
        cases a with
        | nil =>
          cases htext
          exact absurd hc hd
        | cons x a =>
          cases htext
          exact ⟨a, d, b, rfl, fun y hy => ha y (by simp [hy]), hd, by simp [Nat.add_assoc]⟩
    · rw [scanFrom_illegal hc]
      constructor
      · intro h
        cases h
        exact ⟨[], c, text, rfl, by simp, hc, by simp⟩
      · intro h
        obtain ⟨a, d, b, htext, ha, hd, rfl⟩ := h
        cases a with
        | nil =>
          cases htext
          simp
        | cons x a =>
          cases htext
          exact absurd (ha c (by simp)) hc

/-! ## Blanks and sizes of a tiling -/

namespace Tiling

variable {start : Nat} {text rest : Text} {tokens : List Token}

theorem blanks {blanks : Text} (hblank : ∀ c ∈ blanks, isBlank c)
    (h : Tiling (start + blanks.byteSize) rest tokens) :
    Tiling start (blanks ++ rest) tokens := by
  induction blanks generalizing start with
  | nil => exact h
  | cons c blanks ih =>
    refine .blank (hblank c (by simp)) (ih (fun d hd => hblank d (by simp [hd])) ?_)
    rw [Text.byteSize_cons, ← Nat.add_assoc] at h
    exact h

/-- A text without tokens holds nothing but blanks. -/
theorem nil_iff : Tiling start text [] ↔ ∀ c ∈ text, isBlank c := by
  constructor
  · intro h
    generalize htokens : ([] : List Token) = tokens at h
    induction h with
    | nil start => simp
    | blank hc _ ih =>
      intro d hd
      rcases List.mem_cons.1 hd with rfl | hd
      · exact hc
      · exact ih htokens d hd
    | token => cases htokens
  · intro h
    rw [← List.append_nil text]
    exact blanks h (.nil _)

/-- There are no more tokens than characters. -/
theorem length_le (h : Tiling start text tokens) : tokens.length ≤ text.length := by
  induction h with
  | nil start => exact Nat.le_refl _
  | blank _ _ ih =>
    rw [List.length_cons]
    omega
  | token hspells _ _ ih =>
    have hpos := List.length_pos_iff.2 hspells.ne_nil
    rw [List.length_cons, List.length_append]
    omega

/-! ## Taking a tiling apart -/

variable {token first second : Token} {front back : List Token}

/-- A tiling with a first token: blanks, the run of the token, and a tiled rest. -/
theorem exists_split (h : Tiling start text (token :: tokens)) :
    ∃ before run rest : Text, text = before ++ (run ++ rest) ∧ (∀ c ∈ before, isBlank c) ∧
      token.lexeme.Spells run ∧
      token.span = ⟨start + before.byteSize, start + before.byteSize + run.byteSize⟩ ∧
      Tiling (start + before.byteSize + run.byteSize) rest tokens := by
  generalize hall : token :: tokens = all at h
  induction h with
  | nil => cases hall
  | @blank start c text _ hc _ ih =>
    obtain ⟨before, run, rest, rfl, hbefore, hspells, hspan, hrest⟩ := ih hall
    rw [Nat.add_assoc start] at hspan hrest
    exact ⟨c :: before, run, rest, rfl, List.forall_mem_cons.2 ⟨hc, hbefore⟩, hspells, hspan, hrest⟩
  | token hspells hrest =>
    cases hall
    exact ⟨[], _, _, rfl, by simp, hspells, rfl, hrest⟩

/-- The last tokens of a tiling tile a rest of the text. -/
theorem exists_drop (h : Tiling start text (front ++ back)) :
    ∃ before rest : Text, text = before ++ rest ∧ Tiling (start + before.byteSize) rest back := by
  induction front generalizing start text with
  | nil => exact ⟨[], text, rfl, h⟩
  | cons token front ih =>
    obtain ⟨before, run, rest, rfl, _, _, _, hrest⟩ := h.exists_split
    obtain ⟨between, rest, rfl, hback⟩ := ih hrest
    refine ⟨before ++ (run ++ between), rest, by simp, ?_⟩
    simpa [Nat.add_assoc] using hback

/-- Between two neighbours of a tiling the text holds nothing but blanks. -/
theorem exists_gap (h : Tiling start text (front ++ first :: second :: back)) :
    ∃ before run gap run' rest : Text, text = before ++ (run ++ gap ++ run') ++ rest ∧
      first.lexeme.Spells run ∧ (∀ c ∈ gap, isBlank c) ∧ second.lexeme.Spells run' ∧
      first.span.start = start + before.byteSize ∧
      second.span = ⟨start + (before ++ (run ++ gap)).byteSize,
        start + (before ++ (run ++ gap ++ run')).byteSize⟩ := by
  obtain ⟨before, _, rfl, htail⟩ := h.exists_drop
  obtain ⟨blanks, run, _, rfl, _, hrun, hfirst, hbehind⟩ := htail.exists_split
  obtain ⟨gap, run', rest, rfl, hgap, hrun', hsecond, _⟩ := hbehind.exists_split
  refine ⟨before ++ blanks, run, gap, run', rest, by simp, hrun, hgap, hrun', ?_, ?_⟩
  · rw [hfirst]
    simp [Nat.add_assoc]
  · rw [hsecond]
    simp [Nat.add_assoc]

/-! ## The front of a tiling -/

/-- A text begins with a figure where its tiling begins, without a blank, with a numeral. -/
theorem head_script_iff {script : Script} (h : Tiling start text tokens) :
    text.head?.bind Script.ofChar? = some script ↔
      ∃ figures span behind, tokens = ⟨.numeral ⟨script, figures⟩, span⟩ :: behind ∧
        span.start = start := by
  cases h with
  | nil => simp
  | @blank _ c rest _ hc hrest =>
    have hpos := c.utf8Size_pos
    rw [List.head?_cons, Option.bind_some, Script.ofChar?_of_isBlank hc]
    refine ⟨nofun, ?_⟩
    rintro ⟨figures, span, behind, rfl, hstart⟩
    have hle : start + c.utf8Size ≤ span.start := hrest.start_le _ List.mem_cons_self
    omega
  | @token _ run rest lexeme behind hspells hrest hjoin =>
    cases hspells with
    | operator op => simp [Script.ofChar?_toChar]
    | @number _ number hnumber =>
      obtain ⟨c, run, rfl⟩ := List.exists_cons_of_ne_nil hnumber.ne_nil
      obtain ⟨d, figures, hfigures, hc, _⟩ := Figures.cons_iff.1 hnumber.figures
      have hscript : Script.ofChar? c = some number.numeral.script :=
        Script.ofChar?_eq_some_iff.2 ⟨d, hc⟩
      rw [List.cons_append, List.head?_cons, Option.bind_some, hscript, Option.some.injEq]
      constructor
      · rintro rfl
        exact ⟨number.numeral.text, _, _, rfl, rfl⟩
      · rintro ⟨_, _, _, heq, _⟩
        have hnumeral : number.numeral = ⟨script, _⟩ :=
          Lexeme.numeral.inj (congrArg Token.lexeme (List.cons.inj heq).1)
        rw [hnumeral]

/-- A token is joined with nothing behind it where the text behind does not go on with its
figures. -/
theorem join?_head_eq_none_iff {lexeme : Lexeme} {stop : Nat} (h : Tiling stop rest tokens) :
    (∀ next ∈ tokens.head?, join? ⟨lexeme, ⟨start, stop⟩⟩ next = none) ↔
      ∀ numeral, lexeme = .numeral numeral →
        rest.head?.bind Script.ofChar? ≠ some numeral.script := by
  constructor
  · rintro hjoin numeral rfl hhead
    obtain ⟨figures, span', behind, rfl, hstart⟩ := h.head_script_iff.1 hhead
    exact join?_eq_none_iff.1 (hjoin _ rfl) _ _ rfl rfl hstart.symm rfl
  · rintro hhead ⟨lexeme', span'⟩ hnext
    rw [join?_eq_none_iff]
    rintro numeral ⟨_, figures⟩ rfl rfl hstop rfl
    obtain ⟨behind, rfl⟩ := List.head?_eq_some_iff.1 hnext
    exact hhead numeral rfl (h.head_script_iff.2 ⟨figures, span', behind, rfl, hstop.symm⟩)

end Tiling

end Token

end RomanInvoice
