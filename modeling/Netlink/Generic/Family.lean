import Netlink.Attribute.Table
import Netlink.Message.Header

/-! # Families of the generic protocol

Behind the message header, a message of the generic protocol has four bytes of its own: a command
and a version. Families get their numbers when they are registered, so the number of a family has
to be asked for by name. The answer also lists the family's multicast groups, an array of nests
whose own types do not matter. Marks of nests are cleared throughout before types are compared. -/

namespace Netlink

/-- What a message of the generic protocol begins with. -/
structure GenericHeader where
  command : UInt8
  version : UInt8
  reserved : UInt16 := 0
  deriving DecidableEq, Repr, Inhabited

namespace GenericHeader

def size : Nat := 4

def encode (h : GenericHeader) : Bytes := [h.command, h.version] ++ Wire.le16 h.reserved

def ofBytes (bs : Bytes) : GenericHeader := ⟨bs.getD 0 0, bs.getD 1 0, Wire.word16 (bs.drop 2)⟩

def decode (bs : Bytes) : Except Error GenericHeader :=
  match Wire.split? size bs with
  | some (front, _) => .ok (ofBytes front)
  | none => .error (.truncated size bs.length)

end GenericHeader

structure Family where
  /-- The type of the family's messages. -/
  id : UInt16
  name : String
  version : UInt8
  /-- Bytes of a header that the family's messages have behind the generic one. -/
  headerSize : UInt32
  maxAttribute : UInt32
  /-- Multicast groups by name, without a name twice. -/
  groups : List (String × UInt32)
  deriving DecidableEq, Repr

namespace Family

/-! ## Commands and types of attributes -/

def getCommand : UInt8 := 3
def idType : UInt16 := 1
def nameType : UInt16 := 2
def versionType : UInt16 := 3
def headerSizeType : UInt16 := 4
def maxAttributeType : UInt16 := 5
def groupsType : UInt16 := 7
def maxType : UInt16 := 10
/-- In a group's nest, its name. -/
def groupNameType : UInt16 := 1
/-- In a group's nest, its number. -/
def groupIdType : UInt16 := 2

/-! ## Reading -/

/-- Puts a group in place of the one of its name, or behind the others. -/
def insertGroup (groups : List (String × UInt32)) (name : String) (id : UInt32) :
    List (String × UInt32) :=
  if groups.any (·.1 = name) then groups.map fun g => if g.1 = name then (name, id) else g
  else groups ++ [(name, id)]

/-- Reads the groups of an array of nests. A nest without a name or without a number is passed
over; of several groups of one name the last counts. -/
def readGroups (groups : List (String × UInt32)) :
    List Attribute → Decoded (List (String × UInt32))
  | [] => pure groups
  | nest :: nests => do
    let table ← Attribute.Table.readClearing Attribute.nestedFlag groupIdType nest.payload
    match table.get? groupNameType, table.get? groupIdType with
    | some name, some id => do
      let name ← Decoded.ofExcept name.text
      let id ← Decoded.ofExcept id.u32
      readGroups (insertGroup groups name id) nests
    | _, _ => readGroups groups nests

/-- The value of an attribute, or a default if it is absent. -/
def field {α : Type} (t : Attribute.Table) (type : UInt16) (default : α)
    (read : Attribute → Except Error α) : Decoded α :=
  match t.get? type with
  | none => pure default
  | some a => Decoded.ofExcept (read a)

def read (payload : Bytes) : Decoded Family := do
  let _ ← Decoded.ofExcept (GenericHeader.decode payload)
  let table ← Attribute.Table.readClearing Attribute.nestedFlag maxType
    (payload.drop GenericHeader.size)
  let id ← match table.get? idType with
    | none => throw (.invalidMessage .missingFamilyId)
    | some a => Decoded.ofExcept a.u16
  let name ← field table nameType "" Attribute.text
  let version ← field table versionType 0 Attribute.u32
  let headerSize ← field table headerSizeType 0 Attribute.u32
  let maxAttribute ← field table maxAttributeType 0 Attribute.u32
  let groups ← match table.get? groupsType with
    | none => pure []
    | some a => readGroups [] a.children.attributes
  return ⟨id, name, version.toUInt8, headerSize, maxAttribute, groups⟩

def group? (f : Family) (name : String) : Option UInt32 := f.groups.lookup name

end Family
end Netlink
