import Mathlib.Tactic.SplitIfs
import RomanInvoice.Text.Utf8

/-!
# The bytes of a character

The reader knows a character by its first byte and by the ranges of the bytes that follow. Here the
ranges are shown to be the right ones: a first byte and the bytes awaited behind it are the bytes of
a character (`Lead.exists_char`), and the bytes of every character come about in this way
(`exists_lead`). So a state of the reader stands for the front of a character, and says exactly how
characters with this front go on (`Pending.Reached.utf8EncodeChar_eq_iff`).
-/

namespace RomanInvoice.Utf8

open String (utf8EncodeChar)

/-- `pending.Completes bytes n`: the bytes are those that are awaited, and with them the code point
is `n`. -/
inductive Pending.Completes : Pending → List UInt8 → Nat → Prop where
  | nil (code : Nat) : Completes ⟨code, []⟩ [] code
  | cons {code n : Nat} {range : ByteRange} {awaited : List ByteRange} {b : UInt8}
    {bytes : List UInt8} : range.low ≤ b → b ≤ range.high →
    Completes ⟨code * 64 + (b.toNat - 0x80), awaited⟩ bytes n →
    Completes ⟨code, range :: awaited⟩ (b :: bytes) n

/-- The range of the second byte of a character, which the first one may narrow. -/
def second (b : UInt8) : ByteRange :=
  if b.toNat = 0xe0 then ⟨0xa0, 0xbf⟩
  else if b.toNat = 0xed then ⟨0x80, 0x9f⟩
  else if b.toNat = 0xf0 then ⟨0x90, 0xbf⟩
  else if b.toNat = 0xf4 then ⟨0x80, 0x8f⟩
  else follower

/-- The first bytes of characters, by the number of bytes that follow. -/
inductive Lead (b : UInt8) : Pending → Prop where
  | alone : b.toNat < 0x80 → Lead b ⟨b.toNat, []⟩
  | one : 0xc2 ≤ b.toNat → b.toNat < 0xe0 → Lead b ⟨b.toNat - 0xc0, [follower]⟩
  | two : 0xe0 ≤ b.toNat → b.toNat < 0xf0 → Lead b ⟨b.toNat - 0xe0, [second b, follower]⟩
  | three : 0xf0 ≤ b.toNat → b.toNat < 0xf5 →
    Lead b ⟨b.toNat - 0xf0, [second b, follower, follower]⟩

namespace Pending

variable {code n : Nat} {range : ByteRange} {awaited : List ByteRange} {bytes : List UInt8}

theorem completes_nil_iff : Completes ⟨code, []⟩ bytes n ↔ bytes = [] ∧ n = code := by
  constructor
  · intro h
    cases h
    exact ⟨rfl, rfl⟩
  · rintro ⟨rfl, rfl⟩
    exact .nil n

theorem completes_cons_iff :
    Completes ⟨code, range :: awaited⟩ bytes n ↔
      ∃ b rest, bytes = b :: rest ∧ (range.low.toNat ≤ b.toNat ∧ b.toNat ≤ range.high.toNat) ∧
        Completes ⟨code * 64 + (b.toNat - 0x80), awaited⟩ rest n := by
  constructor
  · intro h
    cases h with
    | cons hlow hhigh hrest => exact ⟨_, _, rfl, ⟨hlow, hhigh⟩, hrest⟩
  · rintro ⟨b, rest, rfl, ⟨hlow, hhigh⟩, hrest⟩
    exact .cons hlow hhigh hrest

/-- The bytes that are awaited are so many that no others complete a character sooner. -/
theorem Completes.unique {pending : Pending} {more : List UInt8} {m : Nat}
    (h : pending.Completes bytes n) (h' : pending.Completes (bytes ++ more) m) : n = m := by
  induction h with
  | nil code =>
    cases h'
    rfl
  | cons _ _ _ ih =>
    cases h' with
    | cons _ _ hrest => exact ih hrest

theorem exists_completes (code : Nat) (h : ∀ range ∈ awaited, range.low ≤ range.high) :
    ∃ bytes n, Completes ⟨code, awaited⟩ bytes n := by
  induction awaited generalizing code with
  | nil => exact ⟨[], code, .nil code⟩
  | cons range awaited ih =>
    rw [List.forall_mem_cons] at h
    obtain ⟨bytes, n, hrest⟩ := ih (code * 64 + (range.low.toNat - 0x80)) h.2
    exact ⟨range.low :: bytes, n, .cons (UInt8.le_refl _) h.1 hrest⟩

theorem Completes.le_of_mem {pending : Pending} (h : pending.Completes bytes n)
    (hlow : ∀ range ∈ pending.awaited, 0x80 ≤ range.low) : ∀ b ∈ bytes, 0x80 ≤ b := by
  induction h with
  | nil code => simp
  | cons hb _ _ ih =>
    rw [List.forall_mem_cons] at hlow ⊢
    exact ⟨UInt8.le_trans hlow.1 hb, ih hlow.2⟩

end Pending

/-! ## First bytes -/

theorem mem_second_iff {b : UInt8} {n : Nat} :
    ((second b).low.toNat ≤ n ∧ n ≤ (second b).high.toNat) ↔
      (0x80 ≤ n ∧ n ≤ 0xbf) ∧ (b.toNat = 0xe0 → 0xa0 ≤ n) ∧ (b.toNat = 0xed → n ≤ 0x9f) ∧
        (b.toNat = 0xf0 → 0x90 ≤ n) ∧ (b.toNat = 0xf4 → n ≤ 0x8f) := by
  unfold second follower
  split_ifs <;> simp only [UInt8.reduceToNat] <;> omega

theorem ofLead?_eq_some_iff {b : UInt8} {pending : Pending} :
    Pending.ofLead? b = some pending ↔ Lead b pending := by
  have heq (a : UInt8) : b = a ↔ b.toNat = a.toNat := UInt8.toNat_inj.symm
  -- the four first bytes that narrow the second one belong to the rows of their size
  have hrows : Pending.ofLead? b =
      if b.toNat < 0x80 then some ⟨b.toNat, []⟩
      else if b.toNat < 0xc2 then none
      else if b.toNat < 0xe0 then some ⟨b.toNat - 0xc0, [follower]⟩
      else if b.toNat < 0xf0 then some ⟨b.toNat - 0xe0, [second b, follower]⟩
      else if b.toNat < 0xf5 then some ⟨b.toNat - 0xf0, [second b, follower, follower]⟩
      else none := by
    unfold Pending.ofLead? second
    simp only [UInt8.lt_iff_toNat_lt, heq, UInt8.reduceToNat]
    by_cases he0 : b.toNat = 0xe0
    · simp [he0]
    by_cases hed : b.toNat = 0xed
    · simp [hed]
    by_cases hf0 : b.toNat = 0xf0
    · simp [hf0]
    by_cases hf4 : b.toNat = 0xf4
    · simp [hf4]
    have hlt : b.toNat < 0xf5 ↔ b.toNat < 0xf4 := by omega
    simp only [he0, hed, hf0, hf4, hlt, if_false]
  rw [hrows]
  constructor
  · intro h
    split at h
    · obtain rfl := Option.some.inj h
      exact .alone ‹_›
    split at h
    · cases h
    split at h
    · obtain rfl := Option.some.inj h
      exact .one (by omega) ‹_›
    split at h
    · obtain rfl := Option.some.inj h
      exact .two (by omega) ‹_›
    split at h
    · obtain rfl := Option.some.inj h
      exact .three (by omega) ‹_›
    · cases h
  · intro h
    cases h with
    | alone h => rw [if_pos h]
    | one h h' => rw [if_neg (by omega), if_neg (by omega), if_pos h']
    | two h h' => rw [if_neg (by omega), if_neg (by omega), if_neg (by omega), if_pos h']
    | three h h' =>
      rw [if_neg (by omega), if_neg (by omega), if_neg (by omega), if_neg (by omega), if_pos h']

namespace Lead

variable {b : UInt8} {pending : Pending}

theorem unique {other : Pending} (h : Lead b pending) (h' : Lead b other) : pending = other := by
  rw [← ofLead?_eq_some_iff] at h h'
  exact Option.some.inj (h.symm.trans h')

theorem low_le_high (h : Lead b pending) : ∀ range ∈ pending.awaited, range.low ≤ range.high := by
  have hfollower : follower.low ≤ follower.high := by decide
  have hsecond : (second b).low ≤ (second b).high := by
    unfold second
    split_ifs <;> decide
  cases h <;> simp [hfollower, hsecond]

theorem le_low (h : Lead b pending) : ∀ range ∈ pending.awaited, 0x80 ≤ range.low := by
  have hfollower : 0x80 ≤ follower.low := by decide
  have hsecond : 0x80 ≤ (second b).low := by
    unfold second
    split_ifs <;> decide
  cases h <;> simp [hfollower, hsecond]

end Lead

/-! ## The bytes of a code point -/

theorem utf8EncodeChar_eq (c : Char) : utf8EncodeChar c =
    if c.toNat ≤ 0x7f then [UInt8.ofNat c.toNat]
    else if c.toNat ≤ 0x7ff then
      [UInt8.ofNat (c.toNat / 64 % 0x20 + 0xc0), UInt8.ofNat (c.toNat % 0x40 + 0x80)]
    else if c.toNat ≤ 0xffff then
      [UInt8.ofNat (c.toNat / 4096 % 0x10 + 0xe0), UInt8.ofNat (c.toNat / 64 % 0x40 + 0x80),
        UInt8.ofNat (c.toNat % 0x40 + 0x80)]
    else
      [UInt8.ofNat (c.toNat / 262144 % 0x08 + 0xf0), UInt8.ofNat (c.toNat / 4096 % 0x40 + 0x80),
        UInt8.ofNat (c.toNat / 64 % 0x40 + 0x80), UInt8.ofNat (c.toNat % 0x40 + 0x80)] := rfl

section Sizes

variable {c : Char} {n : Nat} {b b₁ b₂ b₃ : UInt8}

theorem ofNat_eq (h : n = b.toNat) : UInt8.ofNat n = b := by
  rw [h, UInt8.ofNat_toNat]

theorem utf8EncodeChar_of_one (h : c.toNat = b.toNat) (hb : b.toNat < 0x80) :
    utf8EncodeChar c = [b] := by
  rw [utf8EncodeChar_eq, if_pos (by omega), ofNat_eq h]

theorem utf8EncodeChar_of_two (hb : 0xc2 ≤ b.toNat ∧ b.toNat < 0xe0)
    (hb₁ : 0x80 ≤ b₁.toNat ∧ b₁.toNat ≤ 0xbf)
    (hc : c.toNat = (b.toNat - 0xc0) * 64 + (b₁.toNat - 0x80)) :
    utf8EncodeChar c = [b, b₁] := by
  rw [utf8EncodeChar_eq, if_neg (by omega), if_pos (by omega)]
  rw [ofNat_eq (b := b) (by omega), ofNat_eq (b := b₁) (by omega)]

theorem utf8EncodeChar_of_three (hb : 0xe0 ≤ b.toNat ∧ b.toNat < 0xf0)
    (hb₁ : 0x80 ≤ b₁.toNat ∧ b₁.toNat ≤ 0xbf) (hb₂ : 0x80 ≤ b₂.toNat ∧ b₂.toNat ≤ 0xbf)
    (hc : c.toNat = ((b.toNat - 0xe0) * 64 + (b₁.toNat - 0x80)) * 64 + (b₂.toNat - 0x80))
    (hlow : 0x800 ≤ c.toNat) : utf8EncodeChar c = [b, b₁, b₂] := by
  rw [utf8EncodeChar_eq, if_neg (by omega), if_neg (by omega), if_pos (by omega)]
  rw [ofNat_eq (b := b) (by omega), ofNat_eq (b := b₁) (by omega), ofNat_eq (b := b₂) (by omega)]

theorem utf8EncodeChar_of_four (hb : 0xf0 ≤ b.toNat ∧ b.toNat < 0xf5)
    (hb₁ : 0x80 ≤ b₁.toNat ∧ b₁.toNat ≤ 0xbf) (hb₂ : 0x80 ≤ b₂.toNat ∧ b₂.toNat ≤ 0xbf)
    (hb₃ : 0x80 ≤ b₃.toNat ∧ b₃.toNat ≤ 0xbf)
    (hc : c.toNat = (((b.toNat - 0xf0) * 64 + (b₁.toNat - 0x80)) * 64 + (b₂.toNat - 0x80)) * 64
      + (b₃.toNat - 0x80))
    (hlow : 0x10000 ≤ c.toNat) : utf8EncodeChar c = [b, b₁, b₂, b₃] := by
  rw [utf8EncodeChar_eq, if_neg (by omega), if_neg (by omega), if_neg (by omega)]
  rw [ofNat_eq (b := b) (by omega), ofNat_eq (b := b₁) (by omega), ofNat_eq (b := b₂) (by omega),
    ofNat_eq (b := b₃) (by omega)]

theorem exists_char (h : n < 0xd800 ∨ 0xdfff < n ∧ n < 0x110000) : ∃ c : Char, c.toNat = n :=
  ⟨Char.ofNatAux n h, rfl⟩

theorem exists_byte (h : n < 256) : ∃ b : UInt8, b.toNat = n :=
  ⟨.ofNat n, UInt8.toNat_ofNat_of_lt' h⟩

end Sizes

/-- A first byte and the bytes awaited behind it are the bytes of a character. -/
theorem Lead.exists_char {b : UInt8} {pending : Pending} {bytes : List UInt8} {n : Nat}
    (hlead : Lead b pending) (h : pending.Completes bytes n) :
    ∃ c : Char, c.toNat = n ∧ utf8EncodeChar c = b :: bytes := by
  -- what the ranges leave out is just what is no code point, or has fewer bytes
  cases hlead with
  | alone hb =>
    obtain ⟨rfl, rfl⟩ := Pending.completes_nil_iff.1 h
    obtain ⟨c, hc⟩ := Utf8.exists_char (n := b.toNat) (by omega)
    exact ⟨c, hc, utf8EncodeChar_of_one hc hb⟩
  | one hlow hhigh =>
    simp only [Pending.completes_cons_iff, Pending.completes_nil_iff, follower,
      UInt8.reduceToNat] at h
    obtain ⟨b₁, _, rfl, hb₁, rfl, hn⟩ := h
    obtain ⟨c, hc⟩ := Utf8.exists_char (n := n) (by omega)
    exact ⟨c, hc, utf8EncodeChar_of_two ⟨hlow, hhigh⟩ hb₁ (hc.trans hn)⟩
  | two hlow hhigh =>
    simp only [Pending.completes_cons_iff, Pending.completes_nil_iff, mem_second_iff, follower,
      UInt8.reduceToNat] at h
    obtain ⟨b₁, _, rfl, hb₁, b₂, _, rfl, hb₂, rfl, hn⟩ := h
    obtain ⟨c, hc⟩ := Utf8.exists_char (n := n) (by omega)
    exact ⟨c, hc, utf8EncodeChar_of_three ⟨hlow, hhigh⟩ hb₁.1 hb₂ (hc.trans hn) (by omega)⟩
  | three hlow hhigh =>
    simp only [Pending.completes_cons_iff, Pending.completes_nil_iff, mem_second_iff, follower,
      UInt8.reduceToNat] at h
    obtain ⟨b₁, _, rfl, hb₁, b₂, _, rfl, hb₂, b₃, _, rfl, hb₃, rfl, hn⟩ := h
    obtain ⟨c, hc⟩ := Utf8.exists_char (n := n) (by omega)
    exact ⟨c, hc, utf8EncodeChar_of_four ⟨hlow, hhigh⟩ hb₁.1 hb₂ hb₃ (hc.trans hn) (by omega)⟩

/-- The bytes of a character are a first byte and the bytes awaited behind it. -/
theorem exists_lead (c : Char) : ∃ b bytes pending, utf8EncodeChar c = b :: bytes ∧
    Lead b pending ∧ pending.Completes bytes c.toNat := by
  have hvalid : c.toNat < 0xd800 ∨ 0xdfff < c.toNat ∧ c.toNat < 0x110000 := c.valid
  obtain hsize | hsize | hsize | hsize : c.toNat < 0x80 ∨ (0x80 ≤ c.toNat ∧ c.toNat < 0x800) ∨
    (0x800 ≤ c.toNat ∧ c.toNat < 0x10000) ∨ 0x10000 ≤ c.toNat := by omega
  · obtain ⟨b, hb⟩ := exists_byte (n := c.toNat) (by omega)
    have hbytes : utf8EncodeChar c = [b] := utf8EncodeChar_of_one hb.symm (by omega)
    exact ⟨b, _, _, hbytes, .alone (by omega), Pending.completes_nil_iff.2 ⟨rfl, hb.symm⟩⟩
  · obtain ⟨b, hb⟩ := exists_byte (n := c.toNat / 64 + 0xc0) (by omega)
    obtain ⟨b₁, hb₁⟩ := exists_byte (n := c.toNat % 64 + 0x80) (by omega)
    have hbytes : utf8EncodeChar c = [b, b₁] :=
      utf8EncodeChar_of_two (by omega) (by omega) (by omega)
    refine ⟨b, _, _, hbytes, .one (by omega) (by omega), ?_⟩
    simp only [Pending.completes_cons_iff, Pending.completes_nil_iff, follower,
      UInt8.reduceToNat]
    exact ⟨_, _, rfl, by omega, rfl, by omega⟩
  · obtain ⟨b, hb⟩ := exists_byte (n := c.toNat / 4096 + 0xe0) (by omega)
    obtain ⟨b₁, hb₁⟩ := exists_byte (n := c.toNat / 64 % 64 + 0x80) (by omega)
    obtain ⟨b₂, hb₂⟩ := exists_byte (n := c.toNat % 64 + 0x80) (by omega)
    have hbytes : utf8EncodeChar c = [b, b₁, b₂] :=
      utf8EncodeChar_of_three (by omega) (by omega) (by omega) (by omega) (by omega)
    refine ⟨b, _, _, hbytes, .two (by omega) (by omega), ?_⟩
    simp only [Pending.completes_cons_iff, Pending.completes_nil_iff, mem_second_iff, follower,
      UInt8.reduceToNat]
    exact ⟨_, _, rfl, by omega, _, _, rfl, by omega, rfl, by omega⟩
  · obtain ⟨b, hb⟩ := exists_byte (n := c.toNat / 262144 + 0xf0) (by omega)
    obtain ⟨b₁, hb₁⟩ := exists_byte (n := c.toNat / 4096 % 64 + 0x80) (by omega)
    obtain ⟨b₂, hb₂⟩ := exists_byte (n := c.toNat / 64 % 64 + 0x80) (by omega)
    obtain ⟨b₃, hb₃⟩ := exists_byte (n := c.toNat % 64 + 0x80) (by omega)
    have hbytes : utf8EncodeChar c = [b, b₁, b₂, b₃] :=
      utf8EncodeChar_of_four (by omega) (by omega) (by omega) (by omega) (by omega) (by omega)
    refine ⟨b, _, _, hbytes, .three (by omega) (by omega), ?_⟩
    simp only [Pending.completes_cons_iff, Pending.completes_nil_iff, mem_second_iff, follower,
      UInt8.reduceToNat]
    exact ⟨_, _, rfl, by omega, _, _, rfl, by omega, _, _, rfl, by omega, rfl, by omega⟩

/-! ## Fronts of characters -/

/-- `pending.Reached piece`: the reader is in this state when it has read the bytes of `piece`, all
of them of one character. -/
inductive Pending.Reached : Pending → List UInt8 → Prop where
  | lead {b : UInt8} {pending : Pending} : Lead b pending → Reached pending [b]
  | next {code : Nat} {range : ByteRange} {awaited : List ByteRange} {b : UInt8}
    {piece : List UInt8} : Reached ⟨code, range :: awaited⟩ piece → range.low ≤ b →
    b ≤ range.high → Reached ⟨code * 64 + (b.toNat - 0x80), awaited⟩ (piece ++ [b])

namespace Pending.Reached

variable {pending : Pending} {piece bytes : List UInt8} {n : Nat}

theorem length_pos (h : pending.Reached piece) : 0 < piece.length := by
  cases h <;> simp

/-- Behind the bytes that are read, a character goes on with the bytes that are awaited. -/
theorem utf8EncodeChar_eq_iff (h : pending.Reached piece) {c : Char} :
    utf8EncodeChar c = piece ++ bytes ↔ pending.Completes bytes c.toNat := by
  induction h generalizing bytes with
  | @lead b pending hlead =>
    constructor
    · intro hc
      obtain ⟨b', bytes', pending', hc', hlead', hcompletes⟩ := exists_lead c
      obtain ⟨rfl, rfl⟩ := List.cons.inj (hc.symm.trans hc')
      rw [hlead.unique hlead']
      exact hcompletes
    · intro hcompletes
      obtain ⟨c', hc', hbytes⟩ := hlead.exists_char hcompletes
      rw [← Char.toNat_inj.1 hc', hbytes]
      rfl
  | @next code range awaited b piece _ hlow hhigh ih =>
    rw [List.append_assoc, List.singleton_append, ih]
    constructor
    · intro hcompletes
      cases hcompletes with
      | cons _ _ hrest => exact hrest
    · exact .cons hlow hhigh

theorem exists_char (h : pending.Reached piece) (hcompletes : pending.Completes bytes n) :
    ∃ c : Char, c.toNat = n ∧ utf8EncodeChar c = piece ++ bytes := by
  have hvalid : ∃ c : Char, c.toNat = n := by
    induction h generalizing bytes with
    | lead hlead =>
      obtain ⟨c, hc, _⟩ := hlead.exists_char hcompletes
      exact ⟨c, hc⟩
    | next _ hlow hhigh ih => exact ih (.cons hlow hhigh hcompletes)
  obtain ⟨c, rfl⟩ := hvalid
  exact ⟨c, rfl, h.utf8EncodeChar_eq_iff.2 hcompletes⟩

/-- What is read of a character is the front of one, for no range is empty. -/
theorem exists_completion (h : pending.Reached piece) :
    ∃ (c : Char) (more : List UInt8), utf8EncodeChar c = piece ++ more ∧
      pending.Completes more c.toNat := by
  have hranges : ∀ range ∈ pending.awaited, range.low ≤ range.high := by
    induction h with
    | lead hlead => exact hlead.low_le_high
    | next _ _ _ ih => exact (List.forall_mem_cons.1 ih).2
  obtain ⟨more, n, hmore⟩ := exists_completes pending.code hranges
  obtain ⟨c, rfl, hc⟩ := h.exists_char hmore
  exact ⟨c, more, hc, hmore⟩

end Pending.Reached

/-- No character is the front of another. -/
theorem eq_of_prefix_utf8EncodeChar {c d : Char} (h : utf8EncodeChar c <+: utf8EncodeChar d) :
    c = d := by
  obtain ⟨more, hmore⟩ := h
  obtain ⟨b, bytes, pending, hbytes, hlead, hc⟩ := exists_lead c
  rw [hbytes, List.cons_append] at hmore
  have hd := (Pending.Reached.lead hlead).utf8EncodeChar_eq_iff.1 hmore.symm
  exact Char.toNat_inj.1 (hc.unique hd)

/-- A byte below `0x80` is a character of its own, and stands in no other. -/
theorem eq_of_mem_utf8EncodeChar {c : Char} {b : UInt8} (hb : b < 0x80)
    (h : b ∈ utf8EncodeChar c) : utf8EncodeChar c = [b] := by
  obtain ⟨b', bytes, pending, hbytes, hlead, hc⟩ := exists_lead c
  rw [hbytes] at h ⊢
  have hnot : b ∉ bytes := by
    intro hmem
    have hle := hc.le_of_mem hlead.le_low b hmem
    rw [UInt8.le_iff_toNat_le] at hle
    rw [UInt8.lt_iff_toNat_lt] at hb
    omega
  obtain rfl : b = b' := by simpa [hnot] using h
  rw [hlead.unique (.alone hb)] at hc
  rw [(Pending.completes_nil_iff.1 hc).1]

end RomanInvoice.Utf8
