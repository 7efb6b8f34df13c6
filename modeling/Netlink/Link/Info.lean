import Netlink.Report.Error

/-! # The fixed part of messages about interfaces

A message about an interface begins with sixteen bytes that say which interface is meant, what kind
of device it is and which of its flags are set or are to be changed. A request for statistics
begins with twelve bytes that say which of them are wanted. -/

namespace Netlink

/-- The fixed part of a message about an interface. -/
structure InterfaceInfo where
  family : UInt8 := 0
  pad : UInt8 := 0
  /-- The kind of device. -/
  deviceType : UInt16 := 0
  /-- The number of the interface; zero leaves it to other criteria. -/
  index : Int32 := 0
  flags : UInt32 := 0
  /-- The flags that are to be changed. -/
  change : UInt32 := 0
  deriving DecidableEq, Repr, Inhabited

namespace InterfaceInfo

def size : Nat := 16

def encode (i : InterfaceInfo) : Bytes :=
  [i.family, i.pad] ++ Wire.le16 i.deviceType ++ Wire.le32 i.index.toUInt32 ++ Wire.le32 i.flags
    ++ Wire.le32 i.change

@[simp] theorem length_encode (i : InterfaceInfo) : i.encode.length = size := by
  simp [encode, size]

def ofBytes (bs : Bytes) : InterfaceInfo where
  family := bs.getD 0 0
  pad := bs.getD 1 0
  deviceType := Wire.word16 (bs.drop 2)
  index := (Wire.word32 (bs.drop 4)).toInt32
  flags := Wire.word32 (bs.drop 8)
  change := Wire.word32 (bs.drop 12)

def decode (bs : Bytes) : Except Error InterfaceInfo :=
  match Wire.split? size bs with
  | some (front, _) => .ok (ofBytes front)
  | none => .error (.truncated size bs.length)

end InterfaceInfo

/-- The fixed part of a request for statistics of all interfaces. -/
structure StatisticsRequest where
  family : UInt8
  /-- The kinds of statistics that are wanted, one bit each. -/
  mask : UInt32
  deriving DecidableEq, Repr

/-- Between family and mask stand three bytes of padding and the number of an interface, all
zero. -/
def StatisticsRequest.encode (r : StatisticsRequest) : Bytes :=
  r.family :: Wire.zeros 7 ++ Wire.le32 r.mask

/-! ## Flags of a device -/

namespace DeviceFlag

def up : UInt32 := 0x1
def broadcast : UInt32 := 0x2
def loopback : UInt32 := 0x8
def pointToPoint : UInt32 := 0x10
def noArp : UInt32 := 0x80
def promiscuous : UInt32 := 0x100
def multicast : UInt32 := 0x1000
def lowerUp : UInt32 := 0x10000

end DeviceFlag
end Netlink
