import Netlink.Message.Header
import Netlink.Attribute.Walk

/-! # Messages in a datagram

A datagram is a run of messages, each padded to a multiple of four; the padding of the last may be
missing. The walk takes one message after another off the front. It ends when fewer bytes than a
header are left, or at a header whose length cannot be right, below a header's own or above what is
left: nothing says where the next message would begin, so this is a fault and not a message to
skip. -/

namespace Netlink

/-- A message inside a datagram. -/
structure Frame where
  /-- Where in the datagram it begins. -/
  offset : Nat
  header : Header
  /-- The whole message, header included and padding excluded. -/
  bytes : Bytes
  deriving DecidableEq, Repr

/-- What stands at the front of a run of messages. -/
inductive Front where
  /-- Fewer bytes than a header. -/
  | short
  /-- A header whose declared length cannot be right. -/
  | malformed (declared : Nat)
  /-- A message and what follows its padding. -/
  | message (header : Header) (bytes rest : Bytes)
  deriving DecidableEq, Repr

namespace Front

def of (bs : Bytes) : Front :=
  match Wire.split? headerSize bs with
  | none => .short
  | some (front, _) =>
    let header := Header.ofBytes front
    let length := header.length.toNat
    if length < headerSize then .malformed length
    else match Wire.split? length bs with
      | none => .malformed length
      | some (bytes, rest) => .message header bytes (rest.drop (Wire.align4 length - length))

theorem length_of_message {bs bytes rest : Bytes} {header : Header}
    (h : of bs = .message header bytes rest) : rest.length < bs.length := by
  unfold of at h
  split at h
  · contradiction
  · dsimp only at h
    split at h
    · contradiction
    · rename_i hlen
      split at h
      · contradiction
      · rename_i bytes' tail hsplit
        have hl := Wire.length_of_split? hsplit
        simp only [message.injEq] at h
        rw [← h.2.2, List.length_drop]
        simp only [headerSize] at hlen
        omega

end Front

namespace Frame

def payload (f : Frame) : Bytes := f.bytes.drop headerSize

/-- The messages of a datagram, the length declared by the record that ended the walk if it was at
fault, and the bytes that belong to no message. -/
structure Walk where
  frames : List Frame
  fault : Option Nat
  rest : Bytes
  deriving DecidableEq, Repr

/-- The walk of what stands at `offset` in a datagram. -/
def walkFrom (offset : Nat) (bs : Bytes) : Walk :=
  match _h : Front.of bs with
  | .short => ⟨[], none, bs⟩
  | .malformed declared => ⟨[], some declared, bs⟩
  | .message header bytes rest =>
    let tail := walkFrom (offset + Wire.align4 bytes.length) rest
    ⟨⟨offset, header, bytes⟩ :: tail.frames, tail.fault, tail.rest⟩
termination_by bs.length
decreasing_by exact Front.length_of_message _h

def walk (bs : Bytes) : Walk := walkFrom 0 bs

namespace Walk

/-- The failure that ended the walk, if one did. -/
def error? (w : Walk) : Option Error :=
  w.fault.map fun declared => .framing (.malformed declared w.rest.length)

/-- What is wrong with a datagram that was walked to its end: a fault, or bytes left over. -/
def complaint? (w : Walk) : Option Error :=
  w.error? <|> if w.rest.isEmpty then none else some (.framing (.remnant w.rest.length))

end Walk
end Frame

/-- A message handed to a reader, with the port of its sender. -/
structure Message where
  /-- The port that sent the datagram, zero for the kernel. -/
  sender : UInt32
  header : Header
  /-- The whole message as it was received. -/
  bytes : Bytes
  deriving DecidableEq, Repr

namespace Message

def payload (m : Message) : Bytes := m.bytes.drop headerSize

/-- The attributes that follow a family header of `size` bytes. -/
def attributes (m : Message) (size : Nat) : Attribute.Walk :=
  Attribute.walk (m.payload.drop (Wire.align4 size))

end Message

def Frame.message (sender : UInt32) (f : Frame) : Message := ⟨sender, f.header, f.bytes⟩

end Netlink
