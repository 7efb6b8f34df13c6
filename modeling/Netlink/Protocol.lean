/-! # Netlink protocols and multicast groups

A socket speaks one protocol of the netlink family. Within a protocol the kernel announces changes
to numbered multicast groups: the first thirty-two can be joined at once through a bit mask
(`groupMask`), the others only one by one. -/

namespace Netlink

/-- The part of the kernel a socket talks to. -/
inductive Protocol where
  | route
  | sockDiag
  | connector
  | netfilter
  | kobjectUevent
  | generic
  deriving DecidableEq, Repr, Inhabited

namespace Protocol

def number : Protocol → Nat
  | .route => 0
  | .sockDiag => 4
  | .connector => 11
  | .netfilter => 12
  | .kobjectUevent => 15
  | .generic => 16

def label : Protocol → String
  | .route => "Route"
  | .sockDiag => "SockDiag"
  | .connector => "Connector"
  | .netfilter => "Netfilter"
  | .kobjectUevent => "KobjectUevent"
  | .generic => "Generic"

end Protocol

/-- The bit of a group in a group mask; a group that no bit stands for gives the empty mask. -/
def groupMask (group : UInt32) : UInt32 :=
  if group = 0 ∨ 32 < group then 0 else 1 <<< (group - 1)

/-! ## Groups of the route protocol -/

namespace RouteGroup

def link : UInt32 := 1
def neighbour : UInt32 := 3
def ipv4Address : UInt32 := 5
def ipv4Route : UInt32 := 7
def ipv6Address : UInt32 := 9
def ipv6Route : UInt32 := 11
def namespaceId : UInt32 := 28

end RouteGroup
end Netlink
