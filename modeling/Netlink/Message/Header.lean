import Netlink.Report.Error

/-! # Message headers

Every netlink message starts with sixteen bytes: its length, header included, its type and flags,
and the sequence number and port by which an answer is matched to its request. -/

namespace Netlink

def headerSize : Nat := 16

structure Header where
  /-- Bytes of the message, header included and padding excluded. -/
  length : UInt32
  type : UInt16
  flags : UInt16
  seq : UInt32
  /-- The port of the socket in user space that the message belongs to. -/
  pid : UInt32
  deriving DecidableEq, Repr, Inhabited

/-! ## Types -/

namespace MessageType

def noop : UInt16 := 1
/-- A refusal, or an acknowledgement when its code is zero. -/
def error : UInt16 := 2
/-- The end of a dump. -/
def done : UInt16 := 3
def overrun : UInt16 := 4
/-- Requests to the controller that knows the generic families. -/
def controller : UInt16 := 16
def newLink : UInt16 := 16
def delLink : UInt16 := 17
def getLink : UInt16 := 18
def setLink : UInt16 := 19

def names : List (UInt16 × String) := [
  (noop, "NOOP"), (error, "ERROR"), (done, "DONE"), (overrun, "OVERRUN"),
  (newLink, "NEWLINK"), (delLink, "DELLINK"),
  (20, "NEWADDR"), (21, "DELADDR"),
  (24, "NEWROUTE"), (25, "DELROUTE"),
  (28, "NEWNEIGH"), (29, "DELNEIGH"),
  (36, "NEWQDISC"), (37, "DELQDISC"),
  (88, "NEWNSID"), (89, "DELNSID")]

def name? (type : UInt16) : Option String := names.lookup type

end MessageType

/-! ## Flags -/

namespace MessageFlag

def request : UInt16 := 0x1
/-- One of several messages of an answer. -/
def multi : UInt16 := 0x2
/-- An acknowledgement is wanted. -/
def ack : UInt16 := 0x4
/-- Objects changed while they were dumped. -/
def interrupted : UInt16 := 0x10
/-- All objects are asked for. -/
def dump : UInt16 := 0x300
/-- The refused request is not repeated in full. -/
def capped : UInt16 := 0x100
/-- Attributes follow the acknowledgement. -/
def ackAttributes : UInt16 := 0x200

end MessageFlag

namespace Header

/-- The header of a message that is nothing but a header. -/
def ofType (type flags : UInt16) : Header := ⟨UInt32.ofNat headerSize, type, flags, 0, 0⟩

/-- The flag, or each flag of a mask, is set to some extent. -/
def has (h : Header) (flag : UInt16) : Bool := h.flags &&& flag != 0

def isError (h : Header) : Bool := h.type = MessageType.error

def isDone (h : Header) : Bool := h.type = MessageType.done

def isMulti (h : Header) : Bool := h.has MessageFlag.multi

def isInterrupted (h : Header) : Bool := h.has MessageFlag.interrupted

def clearing (h : Header) (flags : UInt16) : Header := { h with flags := h.flags &&& ~~~flags }

/-- Bytes after the header; a length that does not even count the header leaves none. -/
def payloadSize (h : Header) : Nat := h.length.toNat - headerSize

/-- What a message holds behind its header: up to its declared length, or to the end of the bytes if
they end before. -/
def payloadIn (h : Header) (message : Bytes) : Bytes :=
  (message.take h.length.toNat).drop headerSize

def encode (h : Header) : Bytes :=
  Wire.le32 h.length ++ Wire.le16 h.type ++ Wire.le16 h.flags ++ Wire.le32 h.seq
    ++ Wire.le32 h.pid

def ofBytes (bs : Bytes) : Header :=
  ⟨Wire.word32 bs, Wire.word16 (bs.drop 4), Wire.word16 (bs.drop 6), Wire.word32 (bs.drop 8),
    Wire.word32 (bs.drop 12)⟩

def decode (bs : Bytes) : Except Error Header :=
  match Wire.split? headerSize bs with
  | some (front, _) => .ok (ofBytes front)
  | none => .error (.truncated headerSize bs.length)

@[simp] theorem length_encode (h : Header) : h.encode.length = headerSize := by
  simp [encode, headerSize]

theorem ofBytes_encode (h : Header) : ofBytes h.encode = h := by
  have last : Wire.word32 (Wire.le32 h.pid) = h.pid := by
    simpa using Wire.word32_le32_append h.pid []
  simp only [ofBytes, encode, List.append_assoc, Wire.word32_le32_append, Wire.drop_le32_append,
    Wire.drop_le16_append, Wire.word16_le16_append, List.drop_zero, last]

end Header
end Netlink
