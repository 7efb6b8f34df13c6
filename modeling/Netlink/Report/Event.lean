import Netlink.Protocol
import Netlink.Report.Error

/-! # What is written to the log

A conversation reports what it sends, receives, skips and survives. Each report is an `Event`: a
cause with its facts, from which its level, its text and its named fields are read. -/

namespace Netlink

/-- How much a report matters. -/
inductive Level where
  | error
  | warn
  | debug
  | trace
  deriving DecidableEq, Repr

/-- The value of a named field of a report. -/
inductive Field where
  | number (value : Int)
  | flag (value : Bool)
  | text (value : String)
  deriving DecidableEq, Repr

def Field.written : Field → String
  | .number n => toString n
  | .flag b => toString b
  | .text s => s

inductive Event where
  /-- An attribute list ends in bytes that form no record. The declared length is that of the
  record they begin, if they begin one. -/
  | trailingBytes (deficit : Nat) (declared : Option UInt16)
  | sent (segments bytes : Nat)
  | received (bytes : Nat) (sender : UInt32) (truncated : Bool)
  /-- A message that does not answer the outstanding dump. -/
  | foreignToDump (sender pid seq dumpSeq : UInt32)
  /-- A message that does not answer the outstanding requests. -/
  | foreignToRequest (sender pid seq expected : UInt32)
  /-- Data where only an acknowledgement was asked for. -/
  | unexpectedReply (type : UInt16) (seq : UInt32)
  /-- A datagram arrived without its end. -/
  | cutShort (bytes : Nat)
  | shortError
  | shortDone
  /-- The kernel refused a request with this code. -/
  | requestRefused (code : Int32) (seq : UInt32)
  /-- The kernel refused a dump, or broke it off, with this error number. -/
  | dumpRefused (errno : Nat)
  /-- An object of a dump does not fit the kernel's buffer. -/
  | objectTooLarge
  /-- The kernel's own words about a failure. -/
  | kernelError (text : String) (code : Int32)
  /-- The kernel's own words about something that did not fail. -/
  | kernelWarning (text : String)
  /-- Objects changed while they were dumped. -/
  | dumpInterrupted
  /-- There is nothing to dump, which is no failure. -/
  | noSockets (errno : Nat)
  /-- The kernel pointed past the end of the message. -/
  | badOffset (offset : UInt32)
  /-- The receive buffer overflowed. -/
  | overrun
  | opened (protocol : Protocol) (port groups : UInt32)
  | closed (port : UInt32)
  | replayed (count bytes : Nat)
  deriving DecidableEq, Repr

namespace Event

def level : Event → Level
  | .shortError | .shortDone | .requestRefused .. | .dumpRefused _ | .objectTooLarge
  | .kernelError .. => .error
  | .trailingBytes .. | .unexpectedReply .. | .cutShort _ | .kernelWarning _ | .dumpInterrupted
  | .badOffset _ | .overrun => .warn
  | .foreignToDump .. | .foreignToRequest .. | .noSockets _ | .opened .. | .closed _
  | .replayed .. => .debug
  | .sent .. | .received .. => .trace

/-- The sentence ends in a full stop. -/
def stopped (text : String) : String := if text.endsWith "." then text else text ++ "."

def message : Event → String
  | .trailingBytes .. => "attribute list has trailing bytes"
  | .sent .. => "netlink send"
  | .received .. => "netlink recv"
  | .foreignToDump .. | .foreignToRequest .. => "skipping unrelated message"
  | .unexpectedReply .. => "unexpected reply"
  | .cutShort _ => "message truncated"
  | .shortError => "ERROR truncated"
  | .shortDone => "DONE truncated"
  | .requestRefused code _ => "RTNETLINK answers: " ++ Errno.describe (Error.number code)
  | .dumpRefused errno => "RTNETLINK answers: " ++ Errno.describe errno
  | .objectTooLarge => "Error: Buffer too small for object."
  | .kernelError text _ => "Error: " ++ stopped text
  | .kernelWarning text => "Warning: " ++ stopped text
  | .dumpInterrupted => "Dump was interrupted and may be inconsistent."
  | .noSockets _ => "no sockets to dump"
  | .badOffset _ => "invalid offset for NLMSGERR_ATTR_OFFS"
  | .overrun => "netlink receive overrun, notifications lost"
  | .opened .. => "netlink socket open"
  | .closed _ => "netlink socket closed"
  | .replayed .. => "capture replayed"

/-- The named fields of a report. The number shown for a code is its negation. -/
def fields : Event → List (String × Field)
  | .trailingBytes deficit declared =>
    ("deficit", .number deficit) :: match declared with
      | some length => [("rta_len", .number length.toNat)]
      | none => []
  | .sent segments bytes => [("segments", .number segments), ("bytes", .number bytes)]
  | .received bytes sender truncated =>
    [("bytes", .number bytes), ("sender", .number sender.toNat), ("truncated", .flag truncated)]
  | .foreignToDump sender pid seq dumpSeq =>
    [("sender", .number sender.toNat), ("pid", .number pid.toNat), ("seq", .number seq.toNat),
      ("dump_seq", .number dumpSeq.toNat)]
  | .foreignToRequest sender pid seq expected =>
    [("sender", .number sender.toNat), ("pid", .number pid.toNat), ("seq", .number seq.toNat),
      ("expected", .number expected.toNat)]
  | .unexpectedReply type seq => [("msg_type", .number type.toNat), ("seq", .number seq.toNat)]
  | .cutShort bytes => [("bytes", .number bytes)]
  | .requestRefused code seq => [("errno", .number (-code).toInt), ("seq", .number seq.toNat)]
  | .dumpRefused errno | .noSockets errno => [("errno", .number errno)]
  | .kernelError _ code => [("errno", .number (-code).toInt)]
  | .badOffset offset => [("offset", .number offset.toNat)]
  | .opened protocol port groups =>
    [("protocol", .text protocol.label), ("port_id", .number port.toNat),
      ("groups", .number groups.toNat)]
  | .closed port => [("port_id", .number port.toNat)]
  | .replayed count bytes => [("count", .number count), ("bytes", .number bytes)]
  | .shortError | .shortDone | .objectTooLarge | .kernelWarning _ | .dumpInterrupted
  | .overrun => []

end Event
end Netlink
