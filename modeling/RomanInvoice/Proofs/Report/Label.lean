import Mathlib.Data.List.Basic
import RomanInvoice.Proofs.Blame
import RomanInvoice.Report

/-!
# Labels — which reports can be drawn

A span counts bytes and a label characters. `Text.begunBefore` says what the label of an offset is:
the number of characters that begin before it, where an offset past the end counts as the end
(`Text.charsBefore_eq`). That number never goes down as the offset goes up, whatever the text is. So
a report is missing only where a span runs backward (`Report.Backward`), which no rejection of an
expression does.
-/

namespace RomanInvoice

namespace Text

/-- How many characters of a text begin before an offset, or before the end if that comes first. -/
def begunBefore (text : Text) (offset : Nat) : Nat :=
  (List.range text.length).countP fun i => byteSize (text.take i) < min offset text.byteSize

theorem charsBefore_eq_countP (text : Text) (offset : Nat) :
    text.charsBefore offset =
      (List.range text.length).countP fun i => byteSize (text.take i) < offset := by
  induction text generalizing offset with
  | nil => cases offset <;> rfl
  | cons c text ih =>
    cases offset with
    | zero => simp [charsBefore]
    | succ n =>
      rw [charsBefore, ih, List.length_cons, List.range_succ_eq_map, List.countP_cons,
        List.countP_map]
      congr 1
      refine List.countP_congr fun i _ => ?_
      rw [Function.comp_apply, decide_eq_true_iff, decide_eq_true_iff, List.take_succ_cons,
        byteSize_cons]
      omega

theorem charsBefore_le_length (text : Text) (offset : Nat) :
    text.charsBefore offset ≤ text.length := by
  rw [charsBefore_eq_countP]
  exact List.countP_le_length.trans_eq List.length_range

theorem byteSize_take_lt {text : Text} {i : Nat} (h : i < text.length) :
    byteSize (text.take i) < text.byteSize := by
  have hrest : 0 < byteSize (text.drop i) := byteSize_pos (List.drop_eq_nil_iff.not.2 (by omega))
  have hcut : text.byteSize = byteSize (text.take i) + byteSize (text.drop i) := by
    rw [← byteSize_append, List.take_append_drop]
  omega

/-- Every character begins before the end, so an offset past it is as good as the end. -/
theorem charsBefore_eq (text : Text) (offset : Nat) :
    text.charsBefore offset = text.begunBefore offset := by
  rw [charsBefore_eq_countP, begunBefore]
  refine List.countP_congr fun i hi => ?_
  have hend := byteSize_take_lt (List.mem_range.1 hi)
  simp only [decide_eq_true_eq]
  omega

theorem begunBefore_mono (text : Text) {a b : Nat} (h : a ≤ b) :
    text.begunBefore a ≤ text.begunBefore b := by
  refine List.countP_mono_left fun i _ hi => ?_
  simp only [decide_eq_true_eq] at hi ⊢
  omega

end Text

theorem Label.covers_iff {label : Label} {offset : Nat} :
    label.covers offset ↔ label.start ≤ offset ∧ offset < label.stop := by
  rw [covers, Bool.and_eq_true, decide_eq_true_iff, decide_eq_true_iff]

namespace Report

/-- A label of a source that ends before it starts. A rejection without a span is labelled at the
very beginning, and an empty source has no label. -/
def Backward (source : Text) (rejection : Rejection) : Prop :=
  source ≠ [] ∧
    source.begunBefore (rejection.span?.getD ⟨0, 0⟩).stop <
      source.begunBefore (rejection.span?.getD ⟨0, 0⟩).start

variable {source : Text} {rejection : Rejection}

theorem ofRejection?_eq_none_iff :
    ofRejection? source rejection = none ↔ Backward source rejection := by
  unfold ofRejection? Backward Label.ofSpan
  simp only [Text.charsBefore_eq]
  by_cases hsource : source = []
  · simp [hsource]
  · rw [if_neg hsource, ite_eq_right_iff, ← Nat.not_le]
    simp [hsource, Rejection.diagnosis]

theorem not_backward_of_start_le_stop
    (h : ∀ span, rejection.span? = some span → span.start ≤ span.stop) :
    ¬ Backward source rejection := by
  rintro ⟨_, hlt⟩
  have hle : (rejection.span?.getD ⟨0, 0⟩).start ≤ (rejection.span?.getD ⟨0, 0⟩).stop := by
    cases hspan : rejection.span? with
    | none => exact Nat.le_refl 0
    | some span => exact h span hspan
  exact Nat.not_lt.2 (source.begunBefore_mono hle) hlt

theorem exists_ofRejection? (h : ¬ Backward source rejection) :
    ∃ report, ofRejection? source rejection = some report :=
  Option.ne_none_iff_exists'.1 (mt ofRejection?_eq_none_iff.1 h)

/-- What is written, as a text or to a sink, is written of the report if there is one. -/
theorem render?_eq_none_iff {style : Style} :
    render? style source rejection = none ↔ Backward source rejection := by
  rw [render?, Option.map_eq_none_iff, ofRejection?_eq_none_iff]

theorem renderTo?_eq_none_iff {sink : List UInt8} :
    renderTo? sink source rejection = none ↔ Backward source rejection := by
  rw [renderTo?, Option.map_eq_none_iff, render?_eq_none_iff]

/-- **A report is missing in one case only**: its source is not empty and the span, counted in the
characters of the source, ends before it starts. So there is a report on every span that does not
run backward, wherever its ends lie, and on every rejection of an expression, whatever the source
is. -/
theorem missing_iff_backward :
    (∀ source rejection,
      (∀ style, render? style source rejection = none ↔ Backward source rejection) ∧
        ∀ sink, renderTo? sink source rejection = none ↔ Backward source rejection) ∧
    (∀ source rejection, (∀ span, rejection.span? = some span → span.start ≤ span.stop) →
      (∀ style, (render? style source rejection).isSome) ∧
        ∀ sink, (renderTo? sink source rejection).isSome) ∧
    ∀ limits rejection, Expression.Rejects limits rejection → ∀ source,
      (∀ style, (render? style source rejection).isSome) ∧
        ∀ sink, (renderTo? sink source rejection).isSome := by
  have hshown (source : Text) (rejection : Rejection)
      (hspan : ∀ span, rejection.span? = some span → span.start ≤ span.stop) :
      (∀ style, (render? style source rejection).isSome) ∧
        ∀ sink, (renderTo? sink source rejection).isSome := by
    have hforward : ¬ Backward source rejection := not_backward_of_start_le_stop hspan
    exact ⟨fun style => Option.isSome_iff_ne_none.2 (mt render?_eq_none_iff.1 hforward),
      fun sink => Option.isSome_iff_ne_none.2 (mt renderTo?_eq_none_iff.1 hforward)⟩
  refine ⟨?_, hshown, ?_⟩
  · exact fun source rejection => ⟨fun style => render?_eq_none_iff, fun sink =>
      renderTo?_eq_none_iff⟩
  · exact fun limits rejection h source => hshown source rejection fun span => h.start_le_stop

/-- A span that runs backward over characters, one that does so inside a character, and the span of
an expression in a source that is shorter. -/
theorem missing_iff_backward_wide :
    render? .plain "aéb".toList (Fault.overflow.inSpan ⟨3, 1⟩) = none ∧
      (∃ text, render? .plain "é".toList (Fault.overflow.inSpan ⟨2, 1⟩) = some text) ∧
      (render? .coloured "é".toList (Fault.overflow.inSpan ⟨1, 9⟩)).isSome ∧
      Expression.total {} "1 + + 2".toList = .error (Fault.doubledOperator.inSpan ⟨4, 5⟩) ∧
      (renderTo? [] "é".toList (Fault.doubledOperator.inSpan ⟨4, 5⟩)).isSome := by
  obtain ⟨hiff, hforward, hrejects⟩ := missing_iff_backward
  have hinside : ¬ Backward "é".toList (Fault.overflow.inSpan ⟨2, 1⟩) := by
    rintro ⟨_, hlt⟩
    exact absurd hlt (by decide)
  have hoverflow : ∀ span, (Fault.overflow.inSpan ⟨1, 9⟩).span? = some span →
      span.start ≤ span.stop := by
    rintro _ ⟨⟩
    decide
  have htotal : Expression.total {} "1 + + 2".toList =
      .error (Fault.doubledOperator.inSpan ⟨4, 5⟩) := rfl
  refine ⟨((hiff _ _).1 .plain).2 ⟨by decide, by decide⟩, ?_, (hforward _ _ hoverflow).1 .coloured,
    htotal, (hrejects {} _ (.total htotal) _).2 []⟩
  exact Option.ne_none_iff_exists'.1 (mt ((hiff _ _).1 .plain).1 hinside)

end Report

end RomanInvoice
