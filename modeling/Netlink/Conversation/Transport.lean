import Netlink.Config
import Netlink.Report.Event

/-! # Endpoints

A conversation sends and receives whole datagrams over some endpoint. What it asks of one is stated
here: to send the pieces of a datagram back to back, to wait for the next datagram for no longer
than it is told to, and to look at what has arrived without taking it. An endpoint has a measure of
what is still to come, which every datagram and every failed system call makes smaller; a reader
that goes on after those therefore comes to an end. -/

namespace Netlink

/-- What one receive brings. -/
structure Datagram where
  data : Bytes
  /-- The port that sent it, zero for the kernel. -/
  sender : UInt32 := 0
  /-- The end of the datagram is missing. -/
  truncated : Bool := false
  /-- The network namespace it comes from, if the kernel said so. -/
  namespaceId : Option Int32 := none
  deriving DecidableEq, Repr

/-- An endpoint that datagrams can be exchanged over. -/
class Transport (σ : Type) where
  protocol : σ → Protocol
  /-- The port that the endpoint is bound to. -/
  port : σ → UInt32
  /-- Sends pieces back to back, as one datagram. -/
  send : List Bytes → σ → Except Error Unit × σ
  /-- Waits for the next datagram, no longer than so many milliseconds. -/
  receive : Option Nat → σ → Except Error Datagram × σ
  /-- The datagram that a receive would bring now, if there is one. It stays where it is. -/
  peek : σ → Except Error (Option Bytes) × σ
  /-- Lets go of the endpoint; doing so again changes nothing. -/
  close : σ → σ × List Event
  /-- How much is still to come, at most. -/
  pending : σ → Nat
  pending_of_datagram {patience : Option Nat} {s s' : σ} {d : Datagram} :
    receive patience s = (.ok d, s') → pending s' < pending s
  pending_of_fault {patience : Option Nat} {s s' : σ} {fault : IoFault} :
    receive patience s = (.error (.io fault), s') → pending s' < pending s

end Netlink
