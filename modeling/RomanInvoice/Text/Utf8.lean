import RomanInvoice.Text.Span

/-!
# UTF-8

`encode` gives the bytes of a text and `decode` reads them back. The reader goes byte by byte and
carries what it still awaits: after a lead byte, the ranges in which the bytes that follow must lie.
The first of these ranges depends on the lead byte, which rules out overlong forms, surrogates and
code points past the last plane. Where the bytes spell no text, the reader gives the span of the
character that fails: its lead byte and the bytes after it that do fit, or the one byte with which
no character begins.
-/

namespace RomanInvoice.Utf8

/-- The bytes of a text. -/
def encode (text : Text) : List UInt8 :=
  text.flatMap String.utf8EncodeChar

/-- The values from `low` to `high`, in which a byte may lie. -/
structure ByteRange where
  low : UInt8
  high : UInt8
  deriving DecidableEq, Repr

/-- The range of a byte that follows others, where nothing narrows it. -/
def follower : ByteRange := ⟨0x80, 0xbf⟩

/-- A character that is partly read: the leading bits of its code point, and the bytes awaited. -/
structure Pending where
  code : Nat
  awaited : List ByteRange
  deriving DecidableEq, Repr

namespace Pending

/-- The state between two characters. -/
def idle : Pending := ⟨0, []⟩

/-- The state after the first byte of a character; `none` if no character begins with it. -/
def ofLead? (b : UInt8) : Option Pending :=
  if b < 0x80 then some ⟨b.toNat, []⟩
  else if b < 0xc2 then none
  else if b < 0xe0 then some ⟨b.toNat - 0xc0, [follower]⟩
  else if b = 0xe0 then some ⟨0, [⟨0xa0, 0xbf⟩, follower]⟩
  else if b = 0xed then some ⟨0xd, [⟨0x80, 0x9f⟩, follower]⟩
  else if b < 0xf0 then some ⟨b.toNat - 0xe0, [follower, follower]⟩
  else if b = 0xf0 then some ⟨0, [⟨0x90, 0xbf⟩, follower, follower]⟩
  else if b < 0xf4 then some ⟨b.toNat - 0xf0, [follower, follower, follower]⟩
  else if b = 0xf4 then some ⟨4, [⟨0x80, 0x8f⟩, follower, follower]⟩
  else none

/-- The state after one more byte, which adds six bits inside a character. -/
def take? (pending : Pending) (b : UInt8) : Option Pending :=
  match pending.awaited with
  | [] => ofLead? b
  | range :: awaited =>
    if range.low ≤ b ∧ b ≤ range.high then
      some ⟨pending.code * 64 + (b.toNat - 0x80), awaited⟩
    else
      none

end Pending

/--
Reads the bytes from offset `stop` on, where the character at hand began at `start`. Between two
characters both offsets are the same.
-/
def decodeFrom (start stop : Nat) (pending : Pending) : List UInt8 → Except Span Text
  | [] => if pending.awaited = [] then .ok [] else .error ⟨start, stop⟩
  | b :: bytes =>
    match pending.take? b with
    | none => .error ⟨start, max stop (start + 1)⟩
    | some ⟨code, []⟩ => do
      let text ← decodeFrom (stop + 1) (stop + 1) .idle bytes
      return Char.ofNat code :: text
    | some next => decodeFrom start (stop + 1) next bytes

/-- The text that bytes spell, or the span where they first fail to spell one. -/
def decode (bytes : List UInt8) : Except Span Text :=
  decodeFrom 0 0 .idle bytes

end RomanInvoice.Utf8
