import Netlink.Attribute.Basic

/-! # Values in attribute payloads

A number takes the first bytes of the payload and ignores what follows; a text ends at its first
zero byte, or else at the end of the payload. -/

namespace Netlink.Attribute

/-- The first `size` bytes of the payload, as `read` reads them. -/
def number {α : Type} (a : Attribute) (width : Scalar) (size : Nat) (read : Bytes → α) :
    Except Error α :=
  match Wire.split? size a.payload with
  | some (front, _) => .ok (read front)
  | none => .error (.invalidAttribute (.tooShort width))

def u8 (a : Attribute) : Except Error UInt8 :=
  match a.payload with
  | b :: _ => .ok b
  | [] => .error (.invalidAttribute .noByte)

def u16 (a : Attribute) : Except Error UInt16 := a.number .u16 2 Wire.word16

def u32 (a : Attribute) : Except Error UInt32 := a.number .u32 4 Wire.word32

def u64 (a : Attribute) : Except Error UInt64 := a.number .u64 8 Wire.word64

def i32 (a : Attribute) : Except Error Int32 :=
  a.number .i32 4 fun front => (Wire.word32 front).toInt32

def u16be (a : Attribute) : Except Error UInt16 :=
  a.number .u16 2 fun front => UInt16.ofNat (Wire.ofBE front)

def u32be (a : Attribute) : Except Error UInt32 :=
  a.number .u32 4 fun front => UInt32.ofNat (Wire.ofBE front)

def text (a : Attribute) : Except Error String :=
  match Wire.Utf8.decode (Wire.Utf8.untilNul a.payload) with
  | .ok s => .ok s
  | .error fault => .error (.invalidAttribute (.badText fault))

/-! ## Payloads that carry a value -/

def ofU8 (type : UInt16) (v : UInt8) : Attribute := ⟨type, [v]⟩

def ofU16 (type : UInt16) (v : UInt16) : Attribute := ⟨type, Wire.le16 v⟩

def ofU32 (type : UInt16) (v : UInt32) : Attribute := ⟨type, Wire.le32 v⟩

def ofU64 (type : UInt16) (v : UInt64) : Attribute := ⟨type, Wire.le64 v⟩

def ofU16be (type : UInt16) (v : UInt16) : Attribute := ⟨type, Wire.be16 v⟩

def ofU32be (type : UInt16) (v : UInt32) : Attribute := ⟨type, Wire.be32 v⟩

/-- An attribute that says what it has to say by being there. -/
def mark (type : UInt16) : Attribute := ⟨type, []⟩

/-- A text and the zero byte that ends it. -/
def ofText (type : UInt16) (s : String) : Attribute := ⟨type, Wire.Utf8.encode s ++ [0]⟩

end Netlink.Attribute
