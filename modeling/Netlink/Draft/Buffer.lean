import Netlink.Attribute.Basic

/-! # Bounded space for records

What is built goes into a buffer of bounded capacity, each piece padded to a multiple of four. A
write comes with the buffer that it leaves, whether it succeeds or fails; a piece that does not fit
is not begun. A nest is opened by writing its header and closed by writing its length, once the
children are there, over the length in that header; a nest whose children outgrew the length field
is taken out again, children and all. -/

namespace Netlink.Draft

/-- The greatest length that the header of an attribute can declare. -/
def maxRecord : Nat := 65535

/-- A change that succeeded. Whoever gives up on one that fails has no use for what it leaves. -/
def achieved {α β : Type} (change : Except Error α × β) : Except Error (α × β) :=
  change.1.map fun a => (a, change.2)

theorem achieved_eq_ok_iff {α β : Type} {change : Except Error α × β} {a : α} {b : β} :
    achieved change = .ok (a, b) ↔ change = (.ok a, b) := by
  obtain ⟨outcome, left⟩ := change
  cases outcome <;> simp [achieved, Except.map]

theorem map_achieved_eq_ok_iff {β : Type} {change : Except Error Unit × β} {b : β} :
    (achieved change).map (·.2) = .ok b ↔ change = (.ok (), b) := by
  obtain ⟨outcome, left⟩ := change
  cases outcome <;> simp [achieved, Except.map]

/-- Bytes written behind a header that is kept elsewhere, and the room there is for both. -/
structure Buffer where
  /-- Bytes of the header. -/
  base : Nat
  bytes : Bytes
  /-- Bytes that header and contents may take together. -/
  capacity : Nat
  deriving DecidableEq, Repr

namespace Buffer

/-- Bytes taken, header included. -/
def size (b : Buffer) : Nat := b.base + b.bytes.length

/-- Where the next piece will begin. -/
def front (b : Buffer) : Nat := Wire.align4 b.bytes.length

/-- Writes a piece and its padding, unless there is no room for both. -/
def put (b : Buffer) (piece : Bytes) : Except Error Unit × Buffer :=
  let required := b.base + b.front + Wire.align4 piece.length
  if b.capacity < required then (.error (.messageFull b.capacity required), b)
  else (.ok (), { b with bytes := Wire.padded b.bytes ++ Wire.padded piece })

def putAttribute (b : Buffer) (a : Attribute) : Except Error Unit × Buffer :=
  if maxRecord < a.recordSize then
    (.error (.invalidAttribute (.payloadTooLong a.type a.payload.length)), b)
  else b.put ((AttributeHeader.ofSize a.type a.payload.length).encode ++ a.payload)

def add (b : Buffer) (piece : Bytes) : Except Error Buffer :=
  (achieved (b.put piece)).map (·.2)

def addAttribute (b : Buffer) (a : Attribute) : Except Error Buffer :=
  (achieved (b.putAttribute a)).map (·.2)

def cut (b : Buffer) (offset : Nat) : Buffer := { b with bytes := b.bytes.take offset }

def sizeFrom (b : Buffer) (offset : Nat) : Nat := b.bytes.length - offset

/-- Writes a length over that of the attribute at `offset`. -/
def setLength (b : Buffer) (offset length : Nat) : Except Error Buffer :=
  if maxRecord < length then .error (.invalidAttribute (.nestTooLong length))
  else
    let declared := Wire.le16 (UInt16.ofNat length)
    .ok { b with bytes := b.bytes.take offset ++ declared ++ b.bytes.drop (offset + 2) }

theorem add_eq (b : Buffer) (piece : Bytes) :
    let required := b.base + b.front + Wire.align4 piece.length
    b.add piece = if b.capacity < required then .error (.messageFull b.capacity required)
      else .ok { b with bytes := Wire.padded b.bytes ++ Wire.padded piece } := by
  unfold add put
  dsimp only
  split <;> rfl

theorem addAttribute_eq (b : Buffer) (a : Attribute) :
    b.addAttribute a = if maxRecord < a.recordSize then
        .error (.invalidAttribute (.payloadTooLong a.type a.payload.length))
      else b.add ((AttributeHeader.ofSize a.type a.payload.length).encode ++ a.payload) := by
  rw [addAttribute, putAttribute]
  split <;> rfl

/-- A write that is refused changes nothing. -/
theorem put_eq (b : Buffer) (piece : Bytes) :
    b.put piece = match b.add piece with
      | .ok b' => (.ok (), b')
      | .error e => (.error e, b) := by
  unfold put
  rw [add_eq]
  dsimp only
  split <;> rfl

theorem putAttribute_eq (b : Buffer) (a : Attribute) :
    b.putAttribute a = match b.addAttribute a with
      | .ok b' => (.ok (), b')
      | .error e => (.error e, b) := by
  rw [addAttribute_eq, putAttribute]
  split
  · rfl
  · exact b.put_eq _

theorem bytes_add {b b' : Buffer} {piece : Bytes} (h : b.add piece = .ok b') :
    b'.bytes = Wire.padded b.bytes ++ Wire.padded piece := by
  rw [add_eq] at h
  split at h
  · contradiction
  · rw [← Except.ok.inj h]

theorem size_add_le {b b' : Buffer} {piece : Bytes} (h : b.add piece = .ok b') :
    b'.size ≤ b'.capacity := by
  rw [add_eq] at h
  split at h
  · contradiction
  · rename_i hroom
    rw [← Except.ok.inj h]
    simp only [size, List.length_append, Wire.length_padded, front] at hroom ⊢
    omega

end Buffer
end Netlink.Draft
