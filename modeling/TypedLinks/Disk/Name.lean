import TypedLinks.Text.Utf8

/-!
# Names on the disk

The system knows names as bytes. A text is passed on as UTF-8, where a byte that is no part of a
character is kept as a surrogate of its own; two texts with the same bytes are the same name.
-/

namespace TypedLinks.Text

/-- Whether a code point stands for a byte that is no part of a character. -/
def isLooseByte (p : CodePoint) : Bool := 0xDC80 ≤ p.val && p.val ≤ 0xDCFF

/-- The code point that stands for a byte that is no part of a character. -/
def looseByte (b : UInt8) : CodePoint := ⟨0xDC00 + b.toNat, by have := b.toNat_lt; omega⟩

/-- The bytes of a text. -/
def pathBytes (t : Text) : List UInt8 :=
  t.flatMap fun p =>
    if isLooseByte p then [(p.val - 0xDC00).toUInt8]
    else String.utf8EncodeChar (Char.ofNat p.val)

/-- The number of bytes of a text. -/
def byteLength (t : Text) : Nat := t.pathBytes.length

/-- The character that some bytes begin with. -/
def leadingChar? (bytes : List UInt8) : Option Char :=
  [1, 2, 3, 4].findSome? fun n =>
    match Utf8.decode (bytes.take n) with
    | .ok [c] => some c
    | _ => none

/-- The text of bytes, of which the first `skip` belong to a character that was read. -/
def ofPathBytes : Nat → List UInt8 → Text
  | _, [] => []
  | skip + 1, _ :: bs => ofPathBytes skip bs
  | 0, b :: bs =>
    match leadingChar? (b :: bs) with
    | some c => CodePoint.ofChar c :: ofPathBytes (c.utf8Size - 1) bs
    | none => looseByte b :: ofPathBytes 0 bs

/-- The text that the system gives back for a name. -/
def onDisk (name : Text) : Text :=
  if name.any isLooseByte then ofPathBytes 0 name.pathBytes else name

end TypedLinks.Text
