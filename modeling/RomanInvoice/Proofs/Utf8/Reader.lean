import Mathlib.Data.List.Infix
import RomanInvoice.Expression
import RomanInvoice.Proofs.Utf8.Character

/-!
# The reader of bytes

Bytes are the form of at most one text, and `Utf8.decode` finds it: `decode_encode` and
`encode_injective`. Bytes that are the form of no text are refused at the place where the longest
text at their front ends (`Utf8.BrokenAt`); what is blamed there is the longest piece with which a
character could begin. The reader gets there character by character, and `Step` is what it can
answer at the beginning of one.
-/

namespace RomanInvoice

namespace Utf8

open String (utf8EncodeChar)

/-- Bytes with which a character may begin: none of its bytes, some of them, or all. -/
def Begins (piece : List UInt8) : Prop :=
  ∃ c : Char, piece <+: utf8EncodeChar c

/-- `Stuck bytes n`: the bytes begin with no character, and the first `n` of them are the longest
piece with which one may begin, or a single byte if no piece is. -/
structure Stuck (bytes : List UInt8) (n : Nat) : Prop where
  not_prefix : ∀ c, ¬ utf8EncodeChar c <+: bytes
  pos : 0 < n
  le_length : n ≤ bytes.length
  piece : (Begins (bytes.take n) ∧ ∀ piece, piece <+: bytes → Begins piece → piece.length ≤ n) ∨
    (n = 1 ∧ ∀ piece, piece <+: bytes → Begins piece → piece = [])

/-- `BrokenAt bytes span`: the bytes are a text up to the start of the span and not further. In the
span they have the longest piece with which a character may begin, or a single byte if no piece is;
so the span ends with the bytes where the last character is only cut short. -/
structure BrokenAt (bytes : List UInt8) (span : Span) : Prop where
  front : ∃ text, encode text = bytes.take span.start
  longest_front : ∀ text, encode text <+: bytes → (encode text).length ≤ span.start
  size : span.start + 1 ≤ span.stop ∧ span.stop ≤ span.start + 3
  stop_le : span.stop ≤ bytes.length
  piece : (Begins ((bytes.take span.stop).drop span.start) ∧
      ∀ piece, piece <+: bytes.drop span.start → Begins piece →
        span.start + piece.length ≤ span.stop) ∨
    (span.stop = span.start + 1 ∧
      ∀ piece, piece <+: bytes.drop span.start → Begins piece → piece = [])
  cut_short : Begins (bytes.drop span.start) → span.stop = bytes.length

/-! ## Where the reader is stuck -/

section Stuck

variable {bytes : List UInt8} {n : Nat}

/-- Inside a character, a byte that is not awaited is one with which no character goes on. -/
theorem Pending.Reached.length_le {code : Nat} {range : ByteRange} {awaited : List ByteRange}
    {front piece : List UInt8} (h : Reached ⟨code, range :: awaited⟩ front)
    (hnext : ∀ b ∈ bytes.head?, ¬ (range.low ≤ b ∧ b ≤ range.high))
    (hpiece : piece <+: front ++ bytes) (hbegins : Begins piece) :
    piece.length ≤ front.length := by
  by_cases hle : piece.length ≤ front.length
  · exact hle
  obtain ⟨c, behind, hbehind⟩ := hbegins
  obtain ⟨rest, rfl⟩ := List.prefix_of_prefix_length_le (List.prefix_append front bytes) hpiece
    (Nat.le_of_not_le hle)
  rw [List.prefix_append_right_inj] at hpiece
  cases rest with
  | nil => simp
  | cons b rest =>
    obtain ⟨others, rfl⟩ := hpiece
    rw [List.append_assoc, List.cons_append] at hbehind
    cases h.utf8EncodeChar_eq_iff.1 hbehind.symm with
    | cons hlow hhigh _ => exact absurd ⟨hlow, hhigh⟩ (hnext b rfl)

/-- So the reader is stuck there, with what it has read of the character. -/
theorem Pending.Reached.stuck {code : Nat} {range : ByteRange} {awaited : List ByteRange}
    {front : List UInt8} (h : Reached ⟨code, range :: awaited⟩ front)
    (hnext : ∀ b ∈ bytes.head?, ¬ (range.low ≤ b ∧ b ≤ range.high)) :
    Stuck (front ++ bytes) front.length := by
  obtain ⟨d, more, hd, hmore⟩ := h.exists_completion
  have hfront : Begins ((front ++ bytes).take front.length) :=
    ⟨d, more, by rw [List.take_left, hd]⟩
  refine ⟨?_, h.length_pos, by simp, .inl ⟨hfront, fun _ => h.length_le hnext⟩⟩
  intro c hc
  -- a whole character would be no longer than the front, which is too short for one
  have hle := h.length_le hnext hc ⟨c, List.prefix_refl _⟩
  have hwithin := List.prefix_of_prefix_length_le hc (List.prefix_append front bytes) hle
  obtain rfl := eq_of_prefix_utf8EncodeChar (hwithin.trans ⟨more, hd.symm⟩)
  have hlength := hwithin.length_le
  rw [hd, List.length_append] at hlength
  obtain rfl : more = [] := List.length_eq_zero_iff.1 (by omega)
  cases hmore

theorem stuck_of_ofLead?_eq_none {b : UInt8} (h : Pending.ofLead? b = none) :
    Stuck (b :: bytes) 1 := by
  have hnone (c : Char) (more : List UInt8) : utf8EncodeChar c ≠ b :: more := by
    intro hc
    obtain ⟨b', _, pending, hbytes, hlead, _⟩ := exists_lead c
    obtain ⟨rfl, _⟩ := List.cons.inj (hc.symm.trans hbytes)
    rw [ofLead?_eq_some_iff.2 hlead] at h
    cases h
  have hpiece : ∀ piece, piece <+: b :: bytes → Begins piece → piece = [] := by
    rintro piece hpiece ⟨c, rest, hc⟩
    cases piece with
    | nil => rfl
    | cons b' piece =>
      obtain ⟨rfl, _⟩ := List.cons_prefix_cons.1 hpiece
      exact absurd hc.symm (hnone c _)
  refine ⟨?_, Nat.one_pos, by simp, .inr ⟨rfl, hpiece⟩⟩
  intro c hc
  exact String.utf8EncodeChar_ne_nil (hpiece _ hc ⟨c, List.prefix_refl _⟩)

/-- A piece of four bytes with which a character begins is the character. -/
theorem Stuck.le_three (h : Stuck bytes n) : n ≤ 3 := by
  rcases h.piece with ⟨⟨c, hc⟩, _⟩ | ⟨rfl, _⟩
  · have hsize := String.length_utf8EncodeChar (c := c)
    have hfour := c.utf8Size_le_four
    have hlength : (bytes.take n).length = n := List.length_take_of_le h.le_length
    by_cases hn : n ≤ 3
    · exact hn
    have hle := hc.length_le
    have heq := hc.eq_of_length (by omega)
    exact absurd (heq ▸ List.take_prefix n bytes) (h.not_prefix c)
  · omega

end Stuck

/-! ## The reader -/

/-- What the reader can answer at the beginning of a character: it reads the character and goes on
behind it, or it is stuck. -/
inductive Step (start : Nat) (bytes : List UInt8) : Except Span Text → Prop where
  | char {c : Char} {rest : List UInt8} : bytes = utf8EncodeChar c ++ rest →
    Step start bytes
      ((decodeFrom (start + c.utf8Size) (start + c.utf8Size) .idle rest).map (c :: ·))
  | stuck {n : Nat} : Stuck bytes n → Step start bytes (.error ⟨start, start + n⟩)

section Step

variable {start stop code : Nat} {pending next : Pending} {b : UInt8} {bytes front : List UInt8}
  {range : ByteRange} {awaited : List ByteRange}

theorem decodeFrom_of_none (h : pending.take? b = none) :
    decodeFrom start stop pending (b :: bytes) = .error ⟨start, max stop (start + 1)⟩ := by
  rw [decodeFrom, h]

theorem decodeFrom_of_done (h : pending.take? b = some ⟨code, []⟩) :
    decodeFrom start stop pending (b :: bytes) =
      (decodeFrom (stop + 1) (stop + 1) .idle bytes).map (Char.ofNat code :: ·) := by
  rw [decodeFrom, h]
  cases decodeFrom (stop + 1) (stop + 1) .idle bytes <;> rfl

theorem decodeFrom_of_pending (h : pending.take? b = some ⟨code, range :: awaited⟩) :
    decodeFrom start stop pending (b :: bytes) =
      decodeFrom start (stop + 1) ⟨code, range :: awaited⟩ bytes := by
  rw [decodeFrom, h]

/-- A byte that is taken ends a character or leads to a state in which more are awaited. -/
theorem step_of_take? (htake : pending.take? b = some next) (h : next.Reached (front ++ [b]))
    (hnext : next.awaited ≠ [] → Step start (front ++ [b] ++ bytes)
      (decodeFrom start (start + (front ++ [b]).length) next bytes)) :
    Step start (front ++ b :: bytes)
      (decodeFrom start (start + front.length) pending (b :: bytes)) := by
  obtain ⟨code, awaited⟩ := next
  rw [List.append_cons]
  cases awaited with
  | nil =>
    obtain ⟨c, rfl, hc⟩ := h.exists_char (.nil code)
    rw [List.append_nil] at hc
    have hsize : start + front.length + 1 = start + c.utf8Size := by
      rw [← String.length_utf8EncodeChar, hc, List.length_append]
      rfl
    rw [decodeFrom_of_done htake, hsize, Char.ofNat_toNat, ← hc]
    exact .char rfl
  | cons range awaited =>
    rw [decodeFrom_of_pending htake]
    simpa [Nat.add_assoc] using hnext (List.cons_ne_nil range awaited)

/-- The run of the reader inside a character. -/
theorem Pending.Reached.step (h : pending.Reached front) (hpending : pending.awaited ≠ []) :
    Step start (front ++ bytes) (decodeFrom start (start + front.length) pending bytes) := by
  induction bytes generalizing pending front with
  | nil =>
    obtain ⟨code, awaited⟩ := pending
    cases awaited with
    | nil => exact absurd rfl hpending
    | cons range awaited => exact .stuck (h.stuck (by simp))
  | cons b bytes ih =>
    obtain ⟨code, awaited⟩ := pending
    cases awaited with
    | nil => exact absurd rfl hpending
    | cons range awaited =>
      by_cases hb : range.low ≤ b ∧ b ≤ range.high
      · exact step_of_take? (if_pos hb) (.next h hb.1 hb.2) (ih (.next h hb.1 hb.2))
      · have hstop : max (start + front.length) (start + 1) = start + front.length := by
          have hpos := h.length_pos
          omega
        have htake : take? ⟨code, range :: awaited⟩ b = none := if_neg hb
        rw [decodeFrom_of_none htake, hstop]
        exact .stuck (h.stuck (by simpa using hb))

theorem step_cons (start : Nat) (b : UInt8) (bytes : List UInt8) :
    Step start (b :: bytes) (decodeFrom start start .idle (b :: bytes)) := by
  cases hlead : Pending.ofLead? b with
  | none =>
    have htake : Pending.take? .idle b = none := hlead
    rw [decodeFrom_of_none htake, Nat.max_eq_right (Nat.le_succ start)]
    exact .stuck (stuck_of_ofLead?_eq_none hlead)
  | some next =>
    have htake : Pending.take? .idle b = some next := hlead
    have hnext : next.Reached ([] ++ [b]) := .lead (ofLead?_eq_some_iff.1 hlead)
    exact step_of_take? htake hnext hnext.step

end Step

/-! ## Texts and their bytes -/

@[simp] theorem encode_nil : encode [] = [] := rfl

@[simp] theorem encode_cons (c : Char) (text : Text) :
    encode (c :: text) = utf8EncodeChar c ++ encode text := rfl

@[simp] theorem encode_append (a b : Text) : encode (a ++ b) = encode a ++ encode b :=
  List.flatMap_append

/-- A byte below `0x80` is among the bytes of a text only as a character of it. -/
theorem mem_encode_iff {text : Text} {c : Char} {b : UInt8} (hb : b < 0x80)
    (hc : utf8EncodeChar c = [b]) : b ∈ encode text ↔ c ∈ text := by
  rw [encode, List.mem_flatMap]
  constructor
  · rintro ⟨d, hd, hmem⟩
    have heq : utf8EncodeChar c = utf8EncodeChar d := by
      rw [hc, eq_of_mem_utf8EncodeChar hb hmem]
    obtain rfl : c = d := eq_of_prefix_utf8EncodeChar (heq ▸ List.prefix_refl _)
    exact hd
  · intro h
    exact ⟨c, h, by simp [hc]⟩

/-- A text whose bytes lie in those of another, or in these and bytes that begin no character, is a
front of the other. -/
theorem prefix_of_prefix_encode {a b : Text} {rest : List UInt8}
    (hrest : ∀ c, ¬ utf8EncodeChar c <+: rest) (h : encode a <+: encode b ++ rest) : a <+: b := by
  induction a generalizing b with
  | nil => exact List.nil_prefix
  | cons c a ih =>
    have hc : utf8EncodeChar c <+: encode b ++ rest :=
      (List.prefix_append (utf8EncodeChar c) (encode a)).trans h
    cases b with
    | nil => exact absurd hc (hrest c)
    | cons d b =>
      rw [encode_cons, List.append_assoc] at hc
      have heq : c = d := by
        rcases List.prefix_or_prefix_of_prefix hc (List.prefix_append _ _) with hcd | hdc
        · exact eq_of_prefix_utf8EncodeChar hcd
        · exact (eq_of_prefix_utf8EncodeChar hdc).symm
      subst heq
      rw [encode_cons, encode_cons, List.append_assoc, List.prefix_append_right_inj] at h
      exact List.cons_prefix_cons.2 ⟨rfl, ih h⟩

theorem encode_injective {a b : Text} (h : encode a = encode b) : a = b := by
  have hnil : ∀ c, ¬ utf8EncodeChar c <+: [] := fun c hc =>
    String.utf8EncodeChar_ne_nil (List.prefix_nil.1 hc)
  have hab : a <+: b := prefix_of_prefix_encode hnil (by simp [h])
  have hba : b <+: a := prefix_of_prefix_encode hnil (by simp [h])
  exact hab.eq_of_length (Nat.le_antisymm hab.length_le hba.length_le)

/-- What the reader answers between two characters: a text, or the place where it is stuck. -/
theorem decodeFrom_idle (start : Nat) (bytes : List UInt8) :
    (∃ text, bytes = encode text ∧ decodeFrom start start .idle bytes = .ok text) ∨
      ∃ text rest n, bytes = encode text ++ rest ∧ Stuck rest n ∧
        decodeFrom start start .idle bytes =
          .error ⟨start + (encode text).length, start + (encode text).length + n⟩ := by
  induction hlength : bytes.length using Nat.strongRecOn generalizing start bytes with
  | ind length ih =>
    cases bytes with
    | nil => exact .inl ⟨[], rfl, rfl⟩
    | cons b bytes =>
      have hstep := step_cons start b bytes
      generalize decodeFrom start start .idle (b :: bytes) = result at hstep ⊢
      cases hstep with
      | stuck hstuck => exact .inr ⟨[], _, _, rfl, hstuck, rfl⟩
      | @char c rest hbytes =>
        rw [hbytes]
        have hlt : rest.length < length := by
          have hpos := c.utf8Size_pos
          rw [← hlength, hbytes, List.length_append, String.length_utf8EncodeChar]
          omega
        rcases ih rest.length hlt (start + c.utf8Size) rest rfl with
          ⟨text, rfl, htext⟩ | ⟨text, rest, n, rfl, hstuck, htext⟩
        · exact .inl ⟨c :: text, rfl, by rw [htext]; rfl⟩
        · refine .inr ⟨c :: text, rest, n, by simp, hstuck, ?_⟩
          rw [htext]
          simp [Except.map, Nat.add_assoc]

/-- Bytes that begin no character are not the end of the bytes of a text. -/
theorem Stuck.encode_ne {text other : Text} {rest : List UInt8} {n : Nat} (h : Stuck rest n) :
    encode other ≠ encode text ++ rest := by
  intro heq
  have hwithin : encode other <+: encode text ++ rest := heq ▸ List.prefix_refl (encode other)
  obtain ⟨more, rfl⟩ := prefix_of_prefix_encode h.not_prefix hwithin
  have hlength := congrArg List.length heq
  have hpos := h.pos
  have hle := h.le_length
  simp only [encode_append, List.length_append] at hlength
  omega

/-- **Bytes are read back**: the reader finds the text of which they are the form. -/
@[simp] theorem decode_encode (text : Text) : decode (encode text) = .ok text := by
  rcases decodeFrom_idle 0 (encode text) with
    ⟨other, hother, h⟩ | ⟨other, rest, n, hother, hstuck, _⟩
  · rw [decode, h, encode_injective hother]
  · exact absurd hother hstuck.encode_ne

theorem Stuck.brokenAt {text : Text} {rest : List UInt8} {n : Nat} (h : Stuck rest n) :
    BrokenAt (encode text ++ rest) ⟨(encode text).length, (encode text).length + n⟩ where
  front := ⟨text, by simp⟩
  longest_front other hother := by
    obtain ⟨more, rfl⟩ := prefix_of_prefix_encode h.not_prefix hother
    simp
  size := ⟨Nat.add_le_add_left h.pos _, Nat.add_le_add_left h.le_three _⟩
  stop_le := by simpa using h.le_length
  piece := by
    simpa [List.take_length_add_append] using h.piece
  cut_short := by
    rw [List.drop_left, List.length_append, Nat.add_left_cancel_iff]
    intro hbegins
    refine Nat.le_antisymm h.le_length ?_
    rcases h.piece with ⟨_, hlongest⟩ | ⟨_, hnone⟩
    · exact hlongest rest (List.prefix_refl rest) hbegins
    · simp [hnone rest (List.prefix_refl rest) hbegins]

section BrokenAt

variable {bytes : List UInt8} {span other : Span}

theorem BrokenAt.start_le (h : BrokenAt bytes span) (h' : BrokenAt bytes other) :
    span.start ≤ other.start := by
  obtain ⟨text, htext⟩ := h.front
  have hle := h'.longest_front text (htext ▸ List.take_prefix span.start bytes)
  have hstop := h.stop_le
  have hsize := h.size
  rwa [htext, List.length_take_of_le (by omega)] at hle

theorem BrokenAt.stop_le_stop {start stop stop' : Nat} (h : BrokenAt bytes ⟨start, stop⟩)
    (h' : BrokenAt bytes ⟨start, stop'⟩) : stop ≤ stop' := by
  have hsize' : start + 1 ≤ stop' ∧ stop' ≤ start + 3 := h'.size
  rcases h.piece with ⟨hbegins, _⟩ | ⟨hone, _⟩
  · have hsize : start + 1 ≤ stop ∧ stop ≤ start + 3 := h.size
    have hwithin : (bytes.take stop).drop start <+: bytes.drop start :=
      List.IsPrefix.drop (List.take_prefix stop bytes) start
    have hlength : ((bytes.take stop).drop start).length = stop - start := by
      rw [List.length_drop, List.length_take_of_le h.stop_le]
    rcases h'.piece with ⟨_, hlongest⟩ | ⟨_, hnone⟩
    · have hle : start + ((bytes.take stop).drop start).length ≤ stop' :=
        hlongest _ hwithin hbegins
      omega
    · have hnil : (bytes.take stop).drop start = [] := hnone _ hwithin hbegins
      rw [hnil, List.length_nil] at hlength
      omega
  · exact Nat.le_trans (Nat.le_of_eq hone) hsize'.1

/-- Bytes are broken in one place only. -/
theorem BrokenAt.unique (h : BrokenAt bytes span) (h' : BrokenAt bytes other) : span = other := by
  have hstart : span.start = other.start := Nat.le_antisymm (h.start_le h') (h'.start_le h)
  obtain ⟨start, stop⟩ := span
  obtain ⟨start', stop'⟩ := other
  obtain rfl : start = start' := hstart
  rw [Nat.le_antisymm (h.stop_le_stop h') (h'.stop_le_stop h)]

theorem not_brokenAt_encode {text : Text} (h : BrokenAt (encode text) span) : False := by
  have hle := h.longest_front text (List.prefix_refl _)
  have hstop := h.stop_le
  have hsize := h.size
  omega

/-- **Bytes that are no text are refused where they are broken.** -/
theorem decode_eq_error_iff : decode bytes = .error span ↔ BrokenAt bytes span := by
  have hcases : (∃ text, bytes = encode text ∧ decode bytes = .ok text) ∨
      ∃ span, BrokenAt bytes span ∧ decode bytes = .error span := by
    rcases decodeFrom_idle 0 bytes with htext | ⟨text, rest, n, rfl, hstuck, hdecode⟩
    · exact .inl htext
    · exact .inr ⟨_, hstuck.brokenAt, by simpa [decode] using hdecode⟩
  rcases hcases with ⟨text, rfl, hdecode⟩ | ⟨place, hplace, hdecode⟩
  · rw [hdecode]
    exact ⟨nofun, fun h => (not_brokenAt_encode h).elim⟩
  · rw [hdecode, Except.error.injEq]
    constructor
    · rintro rfl
      exact hplace
    · exact hplace.unique

theorem eq_encode_of_decode {text : Text} (h : decode bytes = .ok text) : bytes = encode text := by
  rcases decodeFrom_idle 0 bytes with ⟨other, rfl, _⟩ | ⟨_, _, _, _, _, hdecode⟩
  · rw [decode_encode] at h
    rw [Except.ok.inj h]
  · rw [decode, hdecode] at h
    cases h

end BrokenAt

end Utf8

namespace Expression

/-- **The total of bytes**: bytes that are the form of a text have the total of the text or are
rejected as it is; all others are rejected as no text in the place where they are broken, whatever
else may be wrong with them. -/
theorem totalOfBytes_text_or_broken (limits : Limits) (bytes : List UInt8) :
    (∀ text, bytes = Utf8.encode text → totalOfBytes limits bytes = total limits text) ∧
      ((∀ text, bytes ≠ Utf8.encode text) →
        ∃ span, totalOfBytes limits bytes = .error (Fault.notText.inSpan span) ∧
          Utf8.BrokenAt bytes span) := by
  constructor
  · rintro text rfl
    rw [totalOfBytes, Utf8.decode_encode]
  · intro h
    cases hdecode : Utf8.decode bytes with
    | ok text => exact absurd (Utf8.eq_encode_of_decode hdecode) (h text)
    | error span => exact ⟨span, by rw [totalOfBytes, hdecode], Utf8.decode_eq_error_iff.1 hdecode⟩

/-- A dotless letter of two bytes, and a character of four bytes of which the last is missing. -/
theorem totalOfBytes_text_or_broken_short :
    totalOfBytes ⟨0, 0⟩ [0xc4, 0xb1] = total ⟨0, 0⟩ ['ı'] ∧
      ∃ span, totalOfBytes ⟨0, 0⟩ [0x39, 0xf0, 0x9f, 0x98] =
          .error (Fault.notText.inSpan span) ∧
        span = ⟨1, 4⟩ ∧ Utf8.BrokenAt [0x39, 0xf0, 0x9f, 0x98] span := by
  have hbroken : Utf8.decode [0x39, 0xf0, 0x9f, 0x98] = .error ⟨1, 4⟩ := rfl
  have hno (text : Text) : [0x39, 0xf0, 0x9f, 0x98] ≠ Utf8.encode text := by
    intro h
    rw [h, Utf8.decode_encode] at hbroken
    cases hbroken
  obtain ⟨span, hspan, hplace⟩ :=
    (totalOfBytes_text_or_broken ⟨0, 0⟩ [0x39, 0xf0, 0x9f, 0x98]).2 hno
  exact ⟨(totalOfBytes_text_or_broken ⟨0, 0⟩ [0xc4, 0xb1]).1 ['ı'] rfl, span, hspan,
    hplace.unique (Utf8.decode_eq_error_iff.1 hbroken), hplace⟩

end Expression

end RomanInvoice
