/-!
# Text

Expressions are lists of characters, so that a definition on them is a recursion on the list.
Places in a text are counted in the bytes of its UTF-8 form, and `Text.byteSize` is the length in
that unit.
-/

namespace RomanInvoice

/-- A text is the list of its characters. -/
abbrev Text := List Char

namespace Text

/-- The number of bytes of the UTF-8 form of a text. -/
def byteSize : Text → Nat
  | [] => 0
  | c :: text => c.utf8Size + byteSize text

@[simp] theorem byteSize_nil : byteSize [] = 0 := rfl

@[simp] theorem byteSize_cons (c : Char) (text : Text) :
    byteSize (c :: text) = c.utf8Size + byteSize text := rfl

@[simp] theorem byteSize_append (a b : Text) : byteSize (a ++ b) = byteSize a + byteSize b := by
  induction a with
  | nil => simp
  | cons c a ih => simp [ih, Nat.add_assoc]

end Text

end RomanInvoice
