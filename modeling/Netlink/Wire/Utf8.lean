import Netlink.Wire.Bytes

/-! # Text in UTF-8

Names and diagnostics are byte strings that ought to be UTF-8. `decode` reads them one byte at a
time and, on bytes that are no text, says where the valid part ends and whether the input stopped
inside a character or held a byte that no character has in that place. Overlong forms, surrogates
and numbers past the last code point are refused at the byte that makes them so: the range of the
second byte depends on the first (`lead`). -/

namespace Netlink.Wire.Utf8

/-- Why bytes are not text. -/
inductive Fault where
  /-- After `index` valid bytes stand `length` bytes that begin a character which the next byte
  does not continue. -/
  | invalid (length index : Nat)
  /-- After `index` valid bytes the input ends inside a character. -/
  | incomplete (index : Nat)
  deriving DecidableEq, Repr

def Fault.message : Fault → String
  | .invalid length index =>
    s!"invalid utf-8 sequence of {length} bytes from index {index}"
  | .incomplete index => s!"incomplete utf-8 byte sequence from index {index}"

/-- A character of which some bytes have been read. -/
structure Partial where
  /-- How many bytes have been read. -/
  seen : Nat
  /-- How many bytes are still to come. -/
  missing : Nat
  /-- The least value the next byte may have. -/
  low : UInt8
  /-- The greatest value the next byte may have. -/
  high : UInt8
  /-- The bits read so far. -/
  bits : Nat
  deriving DecidableEq, Repr

/-- What the first byte of a character of several bytes promises. -/
def lead (b : UInt8) : Option Partial :=
  let bits (n : Nat) := b.toNat % n
  if 0xC2 ≤ b ∧ b ≤ 0xDF then some ⟨1, 1, 0x80, 0xBF, bits 32⟩
  else if b = 0xE0 then some ⟨1, 2, 0xA0, 0xBF, bits 16⟩
  else if b = 0xED then some ⟨1, 2, 0x80, 0x9F, bits 16⟩
  else if 0xE1 ≤ b ∧ b ≤ 0xEF then some ⟨1, 2, 0x80, 0xBF, bits 16⟩
  else if b = 0xF0 then some ⟨1, 3, 0x90, 0xBF, bits 8⟩
  else if 0xF1 ≤ b ∧ b ≤ 0xF3 then some ⟨1, 3, 0x80, 0xBF, bits 8⟩
  else if b = 0xF4 then some ⟨1, 3, 0x80, 0x8F, bits 8⟩
  else none

/-- Reads on after `index` bytes of whole characters, which are in `chars` latest first, and
possibly inside another character. -/
def scan (index : Nat) (chars : List Char) : Option Partial → Bytes → Except Fault (List Char)
  | none, [] => .ok chars.reverse
  | some _, [] => .error (.incomplete index)
  | none, b :: bs =>
    if b < 0x80 then scan (index + 1) (Char.ofNat b.toNat :: chars) none bs
    else match lead b with
      | some p => scan index chars (some p) bs
      | none => .error (.invalid 1 index)
  | some p, b :: bs =>
    if p.low ≤ b ∧ b ≤ p.high then
      let bits := p.bits * 64 + b.toNat % 64
      if p.missing = 1 then scan (index + p.seen + 1) (Char.ofNat bits :: chars) none bs
      else scan index chars (some ⟨p.seen + 1, p.missing - 1, 0x80, 0xBF, bits⟩) bs
    else .error (.invalid p.seen index)

def decodeChars (bs : Bytes) : Except Fault (List Char) := scan 0 [] none bs

def decode (bs : Bytes) : Except Fault String := (decodeChars bs).map String.ofList

def encode (s : String) : Bytes := s.toList.flatMap String.utf8EncodeChar

/-- The bytes before the first zero byte, or all of them. -/
def untilNul (bs : Bytes) : Bytes := bs.takeWhile (· != 0)

end Netlink.Wire.Utf8
