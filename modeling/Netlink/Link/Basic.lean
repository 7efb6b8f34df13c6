import Netlink.Attribute.Table
import Netlink.Link.Info
import Netlink.Message.Header

/-! # Interfaces

A link is what the kernel tells about one interface: the fixed part of the message, and of the
attributes behind it those that are known here. An attribute that is absent leaves its field
empty; one that is there and cannot be read fails the whole link. -/

namespace Netlink

/-- Whether an interface can pass traffic. -/
inductive OperState where
  | unknown
  | notPresent
  | down
  | lowerLayerDown
  | testing
  | dormant
  | up
  deriving DecidableEq, Repr, Inhabited

namespace OperState

/-- The state of a number; a number without a state of its own is an unknown state. -/
def ofNumber (n : UInt8) : OperState :=
  if n = 1 then .notPresent
  else if n = 2 then .down
  else if n = 3 then .lowerLayerDown
  else if n = 4 then .testing
  else if n = 5 then .dormant
  else if n = 6 then .up
  else .unknown

def name : OperState → String
  | .unknown => "UNKNOWN"
  | .notPresent => "NOTPRESENT"
  | .down => "DOWN"
  | .lowerLayerDown => "LOWERLAYERDOWN"
  | .testing => "TESTING"
  | .dormant => "DORMANT"
  | .up => "UP"

end OperState

/-- An interface as the kernel describes it. -/
structure Link where
  index : UInt32
  flags : UInt32
  /-- The kind of device. -/
  deviceType : UInt16
  name : Option String
  mtu : Option UInt32
  /-- How many packets may wait to be sent. -/
  queueLength : Option UInt32
  operState : Option OperState
  /-- The interface that this one is enslaved to. -/
  master : Option UInt32
  /-- The interface that this one is stacked upon. -/
  lower : Option UInt32
  /-- The name of the driver, for a virtual device. -/
  kind : Option String
  deriving DecidableEq, Repr

namespace Link

/-! ## Types of attributes -/

def nameType : UInt16 := 3
def mtuType : UInt16 := 4
def lowerType : UInt16 := 5
def masterType : UInt16 := 10
def queueLengthType : UInt16 := 13
def operStateType : UInt16 := 16
/-- The nest that holds the kind. -/
def infoType : UInt16 := 18
/-- In a request, the details that are wanted. -/
def detailType : UInt16 := 29
def maxType : UInt16 := 61
/-- Inside the nest, the kind itself. -/
def kindType : UInt16 := 1

/-- The detail that every listing of interfaces asks for: virtual functions. -/
def virtualFunctions : UInt32 := 1

/-! ## Reading -/

/-- Reads the attribute of a type, if it is there. -/
def field {α : Type} (t : Attribute.Table) (type : UInt16) (read : Attribute → Except Error α) :
    Except Error (Option α) :=
  match t.get? type with
  | none => .ok none
  | some a => (read a).map some

def readKind (t : Attribute.Table) : Decoded (Option String) :=
  match t.get? infoType with
  | none => pure none
  | some info => do
    let inner ← Attribute.Table.readNested kindType info
    Decoded.ofExcept (field inner kindType Attribute.text)

/-- The interface that a payload describes. Where several attributes cannot be read, the kind is the
first to be looked at, then name, length limits, state and related interfaces in the order in which
they stand here. -/
def read (payload : Bytes) : Decoded Link := do
  let info ← Decoded.ofExcept (InterfaceInfo.decode payload)
  let table ← Attribute.Table.read maxType (payload.drop InterfaceInfo.size)
  let kind ← readKind table
  let name ← Decoded.ofExcept (field table nameType Attribute.text)
  let mtu ← Decoded.ofExcept (field table mtuType Attribute.u32)
  let queueLength ← Decoded.ofExcept (field table queueLengthType Attribute.u32)
  let state ← Decoded.ofExcept (field table operStateType Attribute.u8)
  let master ← Decoded.ofExcept (field table masterType Attribute.u32)
  let lower ← Decoded.ofExcept (field table lowerType Attribute.u32)
  return {
    index := info.index.toUInt32
    flags := info.flags
    deviceType := info.deviceType
    name, mtu, queueLength
    operState := state.map OperState.ofNumber
    master, lower, kind }

def readMessage (bytes : Bytes) : Decoded Link := do
  let header ← Decoded.ofExcept (Header.decode bytes)
  if header.type ≠ MessageType.newLink then throw (.invalidMessage (.notALink header.type))
  read (header.payloadIn bytes)

/-! ## Properties -/

def isUp (l : Link) : Bool := l.flags &&& DeviceFlag.up != 0

def isLoopback (l : Link) : Bool := l.flags &&& DeviceFlag.loopback != 0

def nameOr (l : Link) (default : String) : String := l.name.getD default

end Link
end Netlink
