import RomanInvoice.Text.Basic

/-!
# Spans

A span is a stretch of a text, given by the byte offsets where it begins and where it ends. Nothing
forces the offsets of a span to lie in any text, so reading one may fail: `Span.slice?` answers only
when both ends are between two characters and in order.
-/

namespace RomanInvoice

/-- The bytes from `start` up to, not including, `stop`. -/
structure Span where
  start : Nat
  stop : Nat
  deriving DecidableEq, Repr

namespace Text

/-- A text cut after its first `n` bytes, if a character ends there. -/
def splitAtByte? : Nat → Text → Option (Text × Text)
  | 0, text => some ([], text)
  | _ + 1, [] => none
  | n + 1, c :: text =>
    if c.utf8Size ≤ n + 1 then
      (splitAtByte? (n + 1 - c.utf8Size) text).map fun (front, back) => (c :: front, back)
    else
      none

/-- How many characters of a text begin before a byte offset. -/
def charsBefore : Nat → Text → Nat
  | 0, _ => 0
  | _ + 1, [] => 0
  | n + 1, c :: text => charsBefore (n + 1 - c.utf8Size) text + 1

@[simp] theorem splitAtByte?_append (a b : Text) :
    (a ++ b).splitAtByte? a.byteSize = some (a, b) := by
  induction a with
  | nil => simp [splitAtByte?]
  | cons c a ih =>
    obtain ⟨n, hn⟩ := Nat.exists_eq_add_one.2 c.utf8Size_pos
    have hsize : byteSize (c :: a) = n + byteSize a + 1 := by
      rw [byteSize_cons, hn]
      omega
    rw [List.cons_append, hsize, splitAtByte?, if_pos (by omega),
      show n + byteSize a + 1 - c.utf8Size = byteSize a by omega, ih]
    rfl

theorem eq_append_of_splitAtByte? {n : Nat} {text a b : Text}
    (h : text.splitAtByte? n = some (a, b)) : text = a ++ b ∧ a.byteSize = n := by
  induction text generalizing n a with
  | nil => cases n <;> simp_all [splitAtByte?]
  | cons c text ih =>
    cases n with
    | zero => simp_all [splitAtByte?]
    | succ n =>
      rw [splitAtByte?] at h
      split at h
      · next hc =>
        obtain ⟨⟨front, back⟩, hrest, heq⟩ := Option.map_eq_some_iff.1 h
        obtain ⟨rfl, rfl⟩ := Prod.mk.inj heq
        obtain ⟨rfl, hsize⟩ := ih hrest
        refine ⟨rfl, ?_⟩
        rw [byteSize_cons, hsize]
        omega
      · cases h

@[simp] theorem charsBefore_append (a b : Text) : (a ++ b).charsBefore a.byteSize = a.length := by
  induction a with
  | nil => simp [charsBefore]
  | cons c a ih =>
    obtain ⟨n, hn⟩ := Nat.exists_eq_add_one.2 c.utf8Size_pos
    have hsize : byteSize (c :: a) = n + byteSize a + 1 := by
      rw [byteSize_cons, hn]
      omega
    rw [List.cons_append, hsize, charsBefore,
      show n + byteSize a + 1 - c.utf8Size = byteSize a by omega, ih, List.length_cons]

end Text

namespace Span

/-- The stretch from the beginning of one span to the end of another. -/
def through (first last : Span) : Span :=
  ⟨first.start, last.stop⟩

/-- A whole text. -/
def whole (text : Text) : Span :=
  ⟨0, text.byteSize⟩

/-- What a text holds in a span. -/
def slice? (span : Span) (text : Text) : Option Text :=
  if span.start ≤ span.stop then do
    let (_, back) ← text.splitAtByte? span.start
    let (middle, _) ← back.splitAtByte? (span.stop - span.start)
    return middle
  else
    none

/-- A span is read where its ends cut the text into three, and gives the part between them. -/
theorem slice?_eq_some_iff {span : Span} {text middle : Text} :
    span.slice? text = some middle ↔
      ∃ a b, text = a ++ middle ++ b ∧ span = ⟨a.byteSize, (a ++ middle).byteSize⟩ := by
  constructor
  · intro h
    unfold slice? at h
    split at h
    · next hle =>
      simp only [Option.bind_eq_bind, Option.bind_eq_some_iff, Option.pure_def,
        Option.some.injEq] at h
      obtain ⟨⟨a, back⟩, hback, ⟨m, b⟩, hm, rfl⟩ := h
      obtain ⟨rfl, ha⟩ := Text.eq_append_of_splitAtByte? hback
      obtain ⟨rfl, hm⟩ := Text.eq_append_of_splitAtByte? hm
      refine ⟨a, b, by simp, ?_⟩
      cases span
      simp_all
    · cases h
  · rintro ⟨a, b, rfl, rfl⟩
    simp [slice?]

end Span

end RomanInvoice
