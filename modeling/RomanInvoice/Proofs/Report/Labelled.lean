import RomanInvoice.Proofs.Report.Label

/-!
# Labelled characters — a label holds what its span holds

A span counts bytes and a label characters. `Text.IndexAt` says which index among the characters of
a text goes with an offset in bytes, for offsets between two characters, inside one and past the
end, and `Label.ofSpan` finds exactly that index for both ends of a span. Where the ends are
boundaries of characters, the label covers the characters that the span selects
(`Label.labelled_of_cut`).
-/

namespace RomanInvoice

namespace Text

/-- `IndexAt text offset i`: of the characters of a text, `i` begin before an offset in bytes. -/
inductive IndexAt (text : Text) (offset : Nat) : Nat → Prop where
  /-- An offset between two characters, or at an end of the text. -/
  | boundary {a b : Text} : text = a ++ b → offset = byteSize a → IndexAt text offset a.length
  /-- An offset inside a character counts it. -/
  | inside {a b : Text} {c : Char} : text = a ++ c :: b → byteSize a < offset →
    offset < byteSize a + c.utf8Size → IndexAt text offset (a.length + 1)
  | past : byteSize text < offset → IndexAt text offset text.length

/-- An offset at which no character is cut. -/
def IsBoundary (text : Text) (offset : Nat) : Prop :=
  ∃ a b, text = a ++ b ∧ offset = a.byteSize

variable {text : Text} {offset other i j : Nat}

theorem charsBefore_append_add (a b : Text) (n : Nat) :
    (a ++ b).charsBefore (a.byteSize + n) = a.length + b.charsBefore n := by
  induction a with
  | nil => simp
  | cons c a ih =>
    obtain ⟨m, hm⟩ := Nat.exists_eq_add_one.2 c.utf8Size_pos
    have hsize : byteSize (c :: a) + n = m + (byteSize a + n) + 1 := by
      rw [byteSize_cons, hm]
      omega
    rw [List.cons_append, hsize, charsBefore,
      show m + (byteSize a + n) + 1 - c.utf8Size = byteSize a + n by omega, ih, List.length_cons]
    omega

theorem charsBefore_cons_of_lt {c : Char} {n : Nat} (hpos : 0 < n) (h : n < c.utf8Size)
    (text : Text) : charsBefore n (c :: text) = 1 := by
  obtain ⟨m, rfl⟩ := Nat.exists_eq_add_one.2 hpos
  rw [charsBefore, Nat.sub_eq_zero_of_le (by omega), charsBefore]

theorem IndexAt.charsBefore_eq (h : text.IndexAt offset i) : text.charsBefore offset = i := by
  cases h with
  | boundary htext hoffset => rw [htext, hoffset, charsBefore_append]
  | @inside a b c htext hlow hhigh =>
    obtain ⟨n, rfl⟩ := Nat.exists_eq_add_of_lt hlow
    rw [htext, Nat.add_assoc, charsBefore_append_add, charsBefore_cons_of_lt (by omega) (by omega)]
  | past hpast =>
    obtain ⟨n, rfl⟩ := Nat.exists_eq_add_of_lt hpast
    have hrest : charsBefore (n + 1) [] = 0 := rfl
    have hend := charsBefore_append_add text [] (n + 1)
    rwa [List.append_nil, hrest] at hend

/-- An index behind one more character. -/
theorem IndexAt.cons (c : Char) (h : text.IndexAt offset i) :
    IndexAt (c :: text) (c.utf8Size + offset) (i + 1) := by
  cases h with
  | @boundary a b htext hoffset =>
    exact .boundary (a := c :: a) (b := b) (by rw [htext]; rfl) (by rw [hoffset, byteSize_cons])
  | @inside a b d htext hlow hhigh =>
    refine .inside (a := c :: a) (b := b) (c := d) (by rw [htext]; rfl) ?_ ?_
    · rw [byteSize_cons]
      omega
    · rw [byteSize_cons]
      omega
  | past hpast =>
    have hrest : byteSize (c :: text) < c.utf8Size + offset := by
      rw [byteSize_cons]
      omega
    exact .past hrest

theorem exists_indexAt (text : Text) (offset : Nat) : ∃ i, text.IndexAt offset i := by
  induction text generalizing offset with
  | nil =>
    rcases Nat.eq_zero_or_pos offset with rfl | hpos
    · exact ⟨_, .boundary (a := []) rfl rfl⟩
    · exact ⟨_, .past hpos⟩
  | cons c text ih =>
    by_cases hinside : offset < c.utf8Size
    · rcases Nat.eq_zero_or_pos offset with rfl | hpos
      · exact ⟨_, .boundary (a := []) rfl rfl⟩
      · exact ⟨_, .inside (a := []) rfl hpos (by simpa using hinside)⟩
    · obtain ⟨n, rfl⟩ := Nat.exists_eq_add_of_le (Nat.le_of_not_lt hinside)
      obtain ⟨i, hi⟩ := ih n
      exact ⟨i + 1, hi.cons c⟩

/-- **The characters before an offset are counted exactly.** -/
theorem charsBefore_eq_iff : text.charsBefore offset = i ↔ text.IndexAt offset i := by
  refine ⟨?_, IndexAt.charsBefore_eq⟩
  rintro rfl
  obtain ⟨i, hi⟩ := exists_indexAt text offset
  rwa [hi.charsBefore_eq]

theorem IndexAt.mono (hle : offset ≤ other) (hi : text.IndexAt offset i)
    (hj : text.IndexAt other j) : i ≤ j := by
  rw [← hi.charsBefore_eq, ← hj.charsBefore_eq, Text.charsBefore_eq, Text.charsBefore_eq]
  exact text.begunBefore_mono hle

end Text

namespace Label

/-- The characters of a source that a label covers. -/
def labelled (label : Label) (source : Text) : Text :=
  (source.zipIdx.filter fun (_, offset) => label.covers offset).map Prod.fst

theorem ofSpan_of_cut (a part b : Text) :
    ofSpan (a ++ part ++ b) ⟨a.byteSize, (a ++ part).byteSize⟩ =
      ⟨a.length, (a ++ part).length⟩ := by
  rw [ofSpan, Text.charsBefore_append, List.append_assoc, Text.charsBefore_append]

/-- A label from one cut of a text to another covers what is between them. -/
theorem labelled_of_cut (a part b : Text) :
    labelled ⟨a.length, (a ++ part).length⟩ (a ++ part ++ b) = part := by
  have hfront : ∀ x ∈ a.zipIdx, ¬ covers ⟨a.length, (a ++ part).length⟩ x.2 := by
    intro x hx hcovers
    exact Nat.not_le.2 (List.snd_lt_of_mem_zipIdx hx) (covers_iff.1 hcovers).1
  have hpart : ∀ x ∈ part.zipIdx a.length, covers ⟨a.length, (a ++ part).length⟩ x.2 := by
    intro x hx
    refine covers_iff.2 ⟨List.le_snd_of_mem_zipIdx hx, ?_⟩
    rw [List.length_append]
    exact List.snd_lt_add_of_mem_zipIdx hx
  have hrest : ∀ x ∈ b.zipIdx (a ++ part).length,
      ¬ covers ⟨a.length, (a ++ part).length⟩ x.2 := by
    intro x hx hcovers
    exact Nat.not_lt.2 (List.le_snd_of_mem_zipIdx hx) (covers_iff.1 hcovers).2
  rw [labelled, List.zipIdx_append, List.zipIdx_append, List.filter_append, List.filter_append,
    Nat.zero_add, Nat.zero_add, List.filter_eq_nil_iff.2 hfront, List.filter_eq_self.2 hpart,
    List.filter_eq_nil_iff.2 hrest]
  simp

variable {source part : Text} {span : Span}

/-- What a span selects is what its label covers. -/
theorem labelled_ofSpan_of_slice? (h : span.slice? source = some part) :
    (ofSpan source span).labelled source = part ∧
      source.extract (ofSpan source span).start (ofSpan source span).stop = part := by
  obtain ⟨a, b, rfl, rfl⟩ := Span.slice?_eq_some_iff.1 h
  rw [ofSpan_of_cut]
  exact ⟨labelled_of_cut a part b, by simp [List.extract_eq_take_drop]⟩

/-- From one boundary to a later one a span selects a part of the text. -/
theorem exists_slice?_of_isBoundary (hle : span.start ≤ span.stop)
    (hstart : source.IsBoundary span.start) (hstop : source.IsBoundary span.stop) :
    ∃ part, span.slice? source = some part := by
  obtain ⟨a, rest, hcut, ha⟩ := hstart
  obtain ⟨front, b, rfl, hfront⟩ := hstop
  rw [ha, hfront] at hle
  obtain ⟨part, rfl, _⟩ := Text.exists_of_append_eq_append hcut.symm hle
  refine ⟨part, Span.slice?_eq_some_iff.2 ⟨a, b, rfl, ?_⟩⟩
  rw [← ha, ← hfront]

/-- The diagnosis of a total has a span that selects a part of the expression. -/
theorem exists_slice?_of_total_error {limits : Limits} {rejection : Rejection}
    (h : Expression.total limits source = .error rejection) :
    ∃ part, rejection.diagnosis.span.slice? source = some part := by
  have hplaced := Expression.placed_of_total_error h
  obtain ⟨fault, span?⟩ := rejection
  cases span? with
  | none => exact ⟨[], Span.slice?_eq_some_iff.2 ⟨[], source, rfl, rfl⟩⟩
  | some span =>
    obtain ⟨part, hpart, _⟩ := hplaced.shows
    exact ⟨part, hpart⟩

/-- **A label is exact**: each of its ends has the index of the end of the span, which goes up with
the offset. Between boundaries the characters from the one index to the other are what the span
selects, and in the report on an expression the characters in the ink of the label are what the span
of the rejection selects. -/
theorem ofSpan_exact :
    (∀ (source : Text) (span : Span) (label : Label), ofSpan source span = label ↔
      source.IndexAt span.start label.start ∧ source.IndexAt span.stop label.stop) ∧
    (∀ (source : Text) (offset other i j : Nat), offset ≤ other →
      source.IndexAt offset i → source.IndexAt other j → i ≤ j) ∧
    (∀ (source : Text) (span : Span), span.start ≤ span.stop →
      source.IsBoundary span.start → source.IsBoundary span.stop →
      span.slice? source =
        some (source.extract (ofSpan source span).start (ofSpan source span).stop)) ∧
    ∀ (limits : Limits) (source : Text) (rejection : Rejection),
      Expression.total limits source = .error rejection →
      rejection.diagnosis.span.slice? source =
        some ((ofSpan source rejection.diagnosis.span).labelled source) := by
  refine ⟨?_, ?_, ?_, ?_⟩
  · intro source span label
    rw [← Text.charsBefore_eq_iff, ← Text.charsBefore_eq_iff, ofSpan]
    cases label
    simp
  · intro source offset other i j hle hi hj
    exact hi.mono hle hj
  · intro source span hle hstart hstop
    obtain ⟨part, hpart⟩ := exists_slice?_of_isBoundary hle hstart hstop
    rw [hpart, (labelled_ofSpan_of_slice? hpart).2]
  · intro limits source rejection h
    obtain ⟨part, hpart⟩ := exists_slice?_of_total_error h
    rw [hpart, (labelled_ofSpan_of_slice? hpart).1]

/-- Offsets inside the letter of two bytes and past the end of a text, and the span of its character
of three bytes. -/
theorem ofSpan_exact_wide :
    ofSpan "ı + €".toList ⟨1, 9⟩ = ⟨1, 5⟩ ∧
      Text.IndexAt "ı + €".toList 1 1 ∧ Text.IndexAt "ı + €".toList 9 5 ∧
      (∀ i, Text.IndexAt "ı + €".toList 2 i → 1 ≤ i) ∧
      Span.slice? ⟨2, 8⟩ "ı + €".toList = some (List.extract "ı + €".toList 1 5) ∧
      Expression.total {} "ı + €".toList = .error ((Fault.illegalChar '€').inSpan ⟨5, 8⟩) ∧
      (ofSpan "ı + €".toList ⟨5, 8⟩).labelled "ı + €".toList = ['€'] := by
  obtain ⟨hiff, hmono, hslice, htotal⟩ := ofSpan_exact
  have hends : ofSpan "ı + €".toList ⟨1, 9⟩ = ⟨1, 5⟩ := rfl
  obtain ⟨hinside, hpast⟩ := (hiff _ _ _).1 hends
  have hstart : Text.IsBoundary "ı + €".toList 2 := ⟨"ı".toList, " + €".toList, rfl, rfl⟩
  have hstop : Text.IsBoundary "ı + €".toList 8 := ⟨"ı + €".toList, [], rfl, rfl⟩
  have herror : Expression.total {} "ı + €".toList =
      .error ((Fault.illegalChar '€').inSpan ⟨5, 8⟩) := rfl
  have hselected : Span.slice? ⟨5, 8⟩ "ı + €".toList = some ['€'] := rfl
  exact ⟨hends, hinside, hpast, fun i => hmono _ 1 2 1 i (by decide) hinside,
    hslice _ ⟨2, 8⟩ (by decide) hstart hstop, herror,
    (Option.some.inj (hselected.symm.trans (htotal _ _ _ herror))).symm⟩

end Label

end RomanInvoice
