import RomanInvoice.Report.Line

/-!
# Places — which line an offset is in

`Text.CutInLines` says how a text is cut into lines, without the cutter: each line but the last is a
text without line ends and an end behind it, and no end is cut in two. `Text.lines` finds the one
way to do that (`Text.cutInLines_iff`). An offset has lines above it and a number of characters
before it in its own line (`Line.exists_place`), and `Line.holding` finds that line
(`Line.holding_of_lines`).
-/

namespace RomanInvoice

/-! ## Lines -/

namespace Text

/-- What ends a line. -/
inductive LineEnd : Text → Prop where
  | single {c : Char} : endsLine c → LineEnd [c]
  | pair : LineEnd ['\r', '\n']

/-- `CutInLines text lines`: cut behind each line end, a text is those lines. -/
inductive CutInLines : Text → List Text → Prop where
  | nil : CutInLines [] []
  | last {line : Text} : line ≠ [] → (∀ c ∈ line, endsLine c = false) → CutInLines line [line]
  /-- A carriage return ends a line alone only if no line feed follows. -/
  | ended (body : Text) {stop text : Text} {lines : List Text} :
    (∀ c ∈ body, endsLine c = false) → LineEnd stop →
    (stop = ['\r'] → text.head? ≠ some '\n') → CutInLines text lines →
    CutInLines (body ++ stop ++ text) ((body ++ stop) :: lines)

variable {text : Text} {lines : List Text}

theorem lines_cons_of_endsLine {c : Char} (hc : endsLine c)
    (hfollow : c = '\r' → text.head? ≠ some '\n') : Text.lines (c :: text) = [c] :: text.lines := by
  have hpair (rest : Text) (hreturn : c = '\r') (hfeed : text = '\n' :: rest) : False :=
    hfollow hreturn (by rw [hfeed]; rfl)
  rw [Text.lines.eq_3 c text hpair, if_pos hc]

/-- A character that ends no line goes to the first line of what follows, if there is one. -/
theorem lines_cons_of_not_endsLine {c : Char} (hc : endsLine c = false) :
    Text.lines (c :: text) = (c :: text.lines.head?.getD []) :: text.lines.tail := by
  have hpair (rest : Text) (hreturn : c = '\r') (_ : text = '\n' :: rest) : False := by
    subst hreturn
    exact absurd hc (by decide)
  rw [Text.lines.eq_3 c text hpair, if_neg (by simp [hc])]
  cases text.lines <;> rfl

/-- Characters that end no line stand before the first line of what follows. -/
theorem lines_append {body line : Text} {others : List Text}
    (hbody : ∀ c ∈ body, endsLine c = false) (htext : text.lines = line :: others) :
    Text.lines (body ++ text) = (body ++ line) :: others := by
  induction body with
  | nil => exact htext
  | cons c body ih =>
    obtain ⟨hc, hbody⟩ := List.forall_mem_cons.1 hbody
    rw [List.cons_append, lines_cons_of_not_endsLine hc, ih hbody]
    rfl

theorem lines_lineEnd_append {stop : Text} (hstop : LineEnd stop)
    (hfollow : stop = ['\r'] → text.head? ≠ some '\n') :
    Text.lines (stop ++ text) = stop :: text.lines := by
  cases hstop with
  | pair => rfl
  | single hc => exact lines_cons_of_endsLine hc fun hreturn => hfollow (by rw [hreturn])

theorem CutInLines.lines_eq (h : text.CutInLines lines) : text.lines = lines := by
  induction h with
  | nil => rfl
  | @last line hne hline =>
    obtain ⟨front, c, rfl⟩ := (List.eq_nil_or_concat line).resolve_left hne
    rw [List.concat_eq_append] at hline ⊢
    obtain ⟨hfront, hc⟩ := List.forall_mem_append.1 hline
    exact lines_append hfront (lines_cons_of_not_endsLine (hc c List.mem_cons_self))
  | ended body hbody hstop hfollow _ ih =>
    rw [List.append_assoc, ← ih]
    exact lines_append hbody (lines_lineEnd_append hstop hfollow)

/-- One more character before the first line. -/
theorem CutInLines.cons {line : Text} {others : List Text} {c : Char} (hc : endsLine c = false)
    (h : text.CutInLines (line :: others)) :
    CutInLines (c :: text) ((c :: line) :: others) := by
  cases h with
  | last _ hline => exact .last (List.cons_ne_nil c _) (List.forall_mem_cons.2 ⟨hc, hline⟩)
  | ended body hbody hstop hfollow hlines =>
    exact .ended (c :: body) (List.forall_mem_cons.2 ⟨hc, hbody⟩) hstop hfollow hlines

theorem cutInLines_lines (text : Text) : text.CutInLines text.lines := by
  fun_induction Text.lines text with
  | case1 => exact .nil
  | case2 text ih => exact .ended [] (List.forall_mem_nil _) .pair (by simp) ih
  | case3 c text hpair hc ih =>
    refine .ended [] (List.forall_mem_nil _) (.single hc) (fun hreturn hfeed => ?_) ih
    obtain ⟨rest, rfl⟩ := List.head?_eq_some_iff.1 hfeed
    exact hpair rest (List.singleton_inj.1 hreturn) rfl
  | case4 c text _ hc hnil _ =>
    obtain rfl : text = [] := by rw [← flatten_lines text, hnil, List.flatten_nil]
    exact .last (List.cons_ne_nil c _) (List.forall_mem_singleton.2 (by simpa using hc))
  | case5 c text _ hc line rest hcons ih =>
    rw [hcons] at ih
    exact ih.cons (by simpa using hc)

/-- **A text is cut into lines in one way**, which the cutter finds. -/
theorem cutInLines_iff : text.CutInLines lines ↔ lines = text.lines := by
  refine ⟨fun h => h.lines_eq.symm, ?_⟩
  rintro rfl
  exact cutInLines_lines text

end Text

/-! ## The line of an offset -/

namespace Line

variable {source text : Text} {before after : List Text} {offset column : Nat}

theorem search_append (before : List Text) (number start : Nat)
    (hcolumn : column < text.length ∨ after = []) :
    search number start (start + before.flatten.length + column) (before ++ text :: after) =
      ⟨number + before.length, start + before.flatten.length, text⟩ := by
  induction before generalizing number start with
  | nil =>
    cases after with
    | nil => rfl
    | cons next after =>
      have hlt : column < text.length := by simpa using hcolumn
      rw [List.flatten_nil, List.length_nil, Nat.add_zero, List.nil_append, search,
        if_pos (Nat.add_lt_add_left hlt start)]
      rfl
  | cons first before ih =>
    have hstart : start + (first :: before).flatten.length =
        start + first.length + before.flatten.length := by
      rw [List.flatten_cons, List.length_append, Nat.add_assoc]
    obtain ⟨next, others, hnext⟩ := List.exists_cons_of_ne_nil
      (show before ++ text :: after ≠ [] by simp)
    rw [hstart, List.cons_append, hnext, search, if_neg (by omega), ← hnext, ih, List.length_cons,
      Nat.add_right_comm, Nat.add_assoc number]

/-- The line that starts at or before an offset and ends behind it; the last one has no end. -/
theorem holding_of_lines (hlines : source.lines = before ++ text :: after)
    (hoffset : offset = before.flatten.length + column)
    (hcolumn : column < text.length ∨ after = []) :
    holding source offset = ⟨before.length + 1, before.flatten.length, text⟩ := by
  have hsearch := search_append before 1 0 hcolumn
  rw [Nat.zero_add] at hsearch
  rw [holding, hlines, hoffset, hsearch, Nat.add_comm]

/-- Every offset is in one of the lines of a source that has some. -/
theorem exists_lines_of_offset (hne : source ≠ []) (offset : Nat) :
    ∃ before text after column, source.lines = before ++ text :: after ∧
      offset = before.flatten.length + column ∧ (column < text.length ∨ after = []) := by
  have hlines : source.lines ≠ [] := by
    intro hnil
    rw [← Text.flatten_lines source, hnil] at hne
    exact hne rfl
  generalize source.lines = lines at hlines
  induction lines generalizing offset with
  | nil => exact absurd rfl hlines
  | cons first lines ih =>
    by_cases hlast : offset < first.length ∨ lines = []
    · exact ⟨[], first, lines, offset, rfl, (Nat.zero_add offset).symm, hlast⟩
    · obtain ⟨hle, hrest⟩ := not_or.1 hlast
      obtain ⟨rest, rfl⟩ := Nat.exists_eq_add_of_le (Nat.le_of_not_lt hle)
      obtain ⟨before, text, after, column, rfl, rfl, hcolumn⟩ := ih rest hrest
      refine ⟨first :: before, text, after, column, rfl, ?_, hcolumn⟩
      rw [List.flatten_cons, List.length_append, Nat.add_assoc]

/-- The characters of the lines above and those before it in its line come before an offset. -/
theorem exists_place (hne : source ≠ []) (hle : offset ≤ source.length) :
    ∃ before text after column, source.lines = before ++ text :: after ∧
      offset = before.flatten.length + column ∧
      before.flatten ++ text.take column = source.take offset ∧
      (column < text.length ∨ after = [] ∧ column = text.length) := by
  obtain ⟨before, text, after, column, hlines, rfl, hcolumn⟩ := exists_lines_of_offset hne offset
  have hflatten : before.flatten ++ (text ++ after.flatten) = source := by
    rw [← Text.flatten_lines source, hlines, List.flatten_append, List.flatten_cons]
  have hend : column < text.length ∨ after = [] ∧ column = text.length := by
    rcases hcolumn with hlt | rfl
    · exact .inl hlt
    · have hlength := congrArg List.length hflatten
      rw [List.flatten_nil, List.append_nil, List.length_append] at hlength
      exact (Nat.lt_or_eq_of_le (by omega)).imp_right fun heq => ⟨rfl, heq⟩
  refine ⟨before, text, after, column, hlines, rfl, ?_, hend⟩
  rw [← hflatten, List.take_length_add_append, List.take_append_of_le_length (by omega)]

end Line

end RomanInvoice
