/-! # Settings of a socket and of the conversations over it -/

namespace Netlink

structure Config where
  /-- Bytes of the socket's receive buffer. -/
  receiveBuffer : Nat := 1048576
  /-- Bytes of the socket's send buffer. -/
  sendBuffer : Nat := 32768
  /-- Multicast groups to join when the address is bound, as a mask. -/
  groups : UInt32 := 0
  /-- Multicast groups to join one by one afterwards. -/
  memberships : List UInt32 := []
  /-- Ask the kernel for texts and offsets with its acknowledgements. -/
  extendedAcks : Bool := true
  /-- Hear notifications of all network namespaces. -/
  allNamespaces : Bool := false
  /-- Keep the kernel's errors out of the log. -/
  quiet : Bool := false
  /-- The longest that one receive may wait, in milliseconds. -/
  timeout : Option Nat := none
  deriving DecidableEq, Repr, Inhabited

end Netlink
