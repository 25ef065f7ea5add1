import TypedLinks.Text.Basic

/-!
# UTF-8

Decoding bytes into characters. A decoder between two bytes knows how many continuation bytes are
owed and the range in which the next one must lie; the ranges exclude overlong forms, surrogates and
numbers beyond U+10FFFF. The first sequence that cannot be completed is reported with its place.
-/

namespace TypedLinks.Utf8

/-- Why bytes are not UTF-8. -/
inductive Reason where
  /-- A byte that starts no sequence. -/
  | invalidStart
  /-- A byte that does not continue the sequence that was begun. -/
  | invalidContinuation
  /-- The bytes end inside a sequence. -/
  | truncated
  deriving DecidableEq, Repr

/-- The bytes from `start` up to but not including `stop` cannot be decoded; `byte` is the first. -/
structure Fault where
  byte : UInt8
  start : Nat
  stop : Nat
  reason : Reason
  deriving DecidableEq, Repr

/-- A sequence that was begun: its first byte and place, the value read so far, how many bytes are
owed after the next one, and the range of the next one. -/
structure Partial where
  lead : UInt8
  start : Nat
  value : Nat
  owed : Nat
  low : Nat
  high : Nat

/-- What the first byte of a sequence announces. -/
def lead (b : UInt8) (start : Nat) : Option Partial :=
  let n := b.toNat
  if 0xC2 ≤ n ∧ n ≤ 0xDF then some ⟨b, start, n - 0xC0, 0, 0x80, 0xBF⟩
  else if n = 0xE0 then some ⟨b, start, 0, 1, 0xA0, 0xBF⟩
  else if n = 0xED then some ⟨b, start, 0xD, 1, 0x80, 0x9F⟩
  else if 0xE1 ≤ n ∧ n ≤ 0xEF then some ⟨b, start, n - 0xE0, 1, 0x80, 0xBF⟩
  else if n = 0xF0 then some ⟨b, start, 0, 2, 0x90, 0xBF⟩
  else if 0xF1 ≤ n ∧ n ≤ 0xF3 then some ⟨b, start, n - 0xF0, 2, 0x80, 0xBF⟩
  else if n = 0xF4 then some ⟨b, start, 4, 2, 0x80, 0x8F⟩
  else none

/-- Decodes bytes from offset `at` on, inside or between sequences. -/
def decodeFrom (offset : Nat) : Option Partial → List UInt8 → Except Fault (List Char)
  | none, [] => .ok []
  | some p, [] => .error ⟨p.lead, p.start, offset, .truncated⟩
  | none, b :: bs =>
    if b.toNat < 0x80 then (Char.ofNat b.toNat :: ·) <$> decodeFrom (offset + 1) none bs
    else match lead b offset with
      | some p => decodeFrom (offset + 1) (some p) bs
      | none => .error ⟨b, offset, offset + 1, .invalidStart⟩
  | some p, b :: bs =>
    let n := b.toNat
    if p.low ≤ n ∧ n ≤ p.high then
      let value := p.value * 64 + (n - 0x80)
      match p.owed with
      | 0 => (Char.ofNat value :: ·) <$> decodeFrom (offset + 1) none bs
      | owed + 1 => decodeFrom (offset + 1) (some { p with value, owed, low := 0x80, high := 0xBF }) bs
    else .error ⟨p.lead, p.start, offset, .invalidContinuation⟩

/-- The characters of UTF-8 bytes, or the first fault. -/
def decode (bytes : List UInt8) : Except Fault (List Char) := decodeFrom 0 none bytes

/-- The UTF-8 bytes of characters. -/
def encode (cs : List Char) : List UInt8 := cs.flatMap String.utf8EncodeChar

/-- The name of a reason in a message. -/
def Reason.description : Reason → Text
  | .invalidStart => "invalid start byte"
  | .invalidContinuation => "invalid continuation byte"
  | .truncated => "unexpected end of data"

/-- The message of a fault: one byte is shown with its value, more are shown by their places. -/
def Fault.message (f : Fault) : Text :=
  let place : Text :=
    if f.stop = f.start + 1 then
      "byte 0x" ++ Text.hexadecimal 2 f.byte.toNat ++ " in position " ++ Text.ofNat f.start
    else "bytes in position " ++ Text.ofNat f.start ++ "-" ++ Text.ofNat (f.stop - 1)
  "'utf-8' codec can't decode " ++ place ++ ": " ++ f.reason.description

end TypedLinks.Utf8
