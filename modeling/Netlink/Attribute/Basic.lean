import Netlink.Report.Error

/-! # Attributes

An attribute is a typed payload. On the wire it is a record: a length and a type of sixteen bits
each, the payload, and zeros up to the next multiple of four. The length counts the four bytes in
front of the payload but not the zeros behind it. The two top bits of the type are flags. -/

namespace Netlink

def Attribute.headerSize : Nat := 4

/-- The payload is itself a list of attributes. -/
def Attribute.nestedFlag : UInt16 := 0x8000

/-- The payload is in network byte order. -/
def Attribute.networkOrderFlag : UInt16 := 0x4000

/-- What stands in front of an attribute's payload. -/
structure AttributeHeader where
  /-- Bytes of the record, padding excluded. -/
  length : UInt16
  type : UInt16
  deriving DecidableEq, Repr

/-- A payload and the type it is filed under, flag bits included. -/
structure Attribute where
  type : UInt16
  payload : Bytes
  deriving DecidableEq, Repr

namespace AttributeHeader

/-- The header for a payload of `size` bytes; a length past sixteen bits wraps around. -/
def ofSize (type : UInt16) (size : Nat) : AttributeHeader :=
  ⟨UInt16.ofNat (Attribute.headerSize + size), type⟩

def encode (h : AttributeHeader) : Bytes := Wire.le16 h.length ++ Wire.le16 h.type

def ofBytes (bs : Bytes) : AttributeHeader := ⟨Wire.word16 bs, Wire.word16 (bs.drop 2)⟩

def decode (bs : Bytes) : Except Error AttributeHeader :=
  match Wire.split? Attribute.headerSize bs with
  | some (front, _) => .ok (ofBytes front)
  | none => .error (.truncated Attribute.headerSize bs.length)

/-- Bytes of the payload; a length that does not even count the header leaves none. -/
def payloadSize (h : AttributeHeader) : Nat := h.length.toNat - Attribute.headerSize

@[simp] theorem length_encode (h : AttributeHeader) : h.encode.length = Attribute.headerSize := by
  simp [encode, Attribute.headerSize]

end AttributeHeader

namespace Attribute

def bareType (type : UInt16) : UInt16 := type &&& ~~~(nestedFlag ||| networkOrderFlag)

def marksNest (type : UInt16) : Bool := type &&& nestedFlag != 0

/-- The attribute's type without its flag bits. -/
def kind (a : Attribute) : UInt16 := bareType a.type

/-- The sender marked the payload as a list of attributes. -/
def isNested (a : Attribute) : Bool := marksNest a.type

/-- Bytes of the attribute's record, padding excluded. -/
def recordSize (a : Attribute) : Nat := headerSize + a.payload.length

/-- The attribute's record with its padding. -/
def encode (a : Attribute) : Bytes :=
  Wire.padded ((AttributeHeader.ofSize a.type a.payload.length).encode ++ a.payload)

def encodeAll (as : List Attribute) : Bytes := as.flatMap encode

theorem length_encode (a : Attribute) : a.encode.length = Wire.align4 a.recordSize := by
  simp [encode, recordSize]

end Attribute
end Netlink
