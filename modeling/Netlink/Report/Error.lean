import Netlink.Report.Errno
import Netlink.Wire.Utf8

/-! # What can go wrong

Each failure is a cause with the facts that belong to it; `Error.message` is the one place where
causes become text. The classes that callers branch on (`isFatal`, `isNotFound`, …) are read off
the cause, so a text never has to be taken apart again. -/

namespace Netlink

/-- A failed system call or a failed write. -/
inductive IoFault where
  /-- The operating system refused with this number. -/
  | os (number : Int)
  /-- A size was too large to hand to the operating system. -/
  | invalidInput
  /-- A sink took only a part of what was written to it. -/
  | sinkFull
  deriving DecidableEq, Repr

/-- A stream of messages that cannot be followed any further. -/
inductive FramingFault where
  /-- A message declares `declared` bytes where `left` bytes are left. -/
  | malformed (declared left : Nat)
  /-- A recorded message at `offset` declares `declared` bytes. -/
  | malformedRecord (declared offset : Nat)
  /-- Bytes that belong to no message. -/
  | remnant (size : Nat)
  | stated (text : String)
  deriving DecidableEq, Repr

/-- A message that cannot be sent, or that is not what was asked for. -/
inductive MessageFault where
  | emptyBatch
  | noReply
  | notALink (type : UInt16)
  | notAFamily (type : UInt16)
  | missingFamilyId
  | stated (text : String)
  deriving DecidableEq, Repr

/-- The widths of numbers in attributes that take more than one byte. -/
inductive Scalar where
  | u16
  | u32
  | u64
  | i32
  deriving DecidableEq, Repr

/-- An attribute that cannot be read or written. -/
inductive AttributeFault where
  /-- A byte was asked for and the payload has none. -/
  | noByte
  /-- The payload is too short for the number asked for. -/
  | tooShort (width : Scalar)
  | badText (fault : Wire.Utf8.Fault)
  /-- The payload does not fit the length field of its record. -/
  | payloadTooLong (type : UInt16) (size : Nat)
  /-- The children of a nest do not fit its length field. -/
  | nestTooLong (size : Nat)
  | stated (text : String)
  deriving DecidableEq, Repr

inductive Error where
  | io (fault : IoFault)
  /-- The kernel refused a request, perhaps saying why. -/
  | kernel (errno : Nat) (detail : Option String)
  /-- The kernel refused a request that was part of `operation`. -/
  | kernelDuring (operation : String) (errno : Nat)
  /-- A record of at least `expected` bytes was announced and `actual` bytes are there. -/
  | truncated (expected actual : Nat)
  /-- A message under construction would outgrow its capacity. -/
  | messageFull (capacity required : Nat)
  | framing (fault : FramingFault)
  | endOfFile
  | closed
  | timedOut
  | invalidMessage (fault : MessageFault)
  | invalidAttribute (fault : AttributeFault)
  | familyNotFound (name : String)
  | interfaceNotFound (name : String)
  deriving DecidableEq, Repr

def IoFault.message : IoFault → String
  | .os number => Errno.describe number
  | .invalidInput => "invalid input parameter"
  | .sinkFull => "failed to write whole buffer"

def FramingFault.message : FramingFault → String
  | .malformed declared left => s!"malformed message: len={declared} with {left} bytes left"
  | .malformedRecord declared offset => s!"malformed message: len={declared} @{offset}"
  | .remnant size => s!"remnant of size {size}"
  | .stated text => text

def MessageFault.message : MessageFault → String
  | .emptyBatch => "empty request batch"
  | .noReply => "no reply"
  | .notALink type => s!"expected RTM_NEWLINK, got type {type}"
  | .notAFamily type => s!"unexpected reply type {type} to CTRL_CMD_GETFAMILY"
  | .missingFamilyId => "missing family ID"
  | .stated text => text

def Scalar.name : Scalar → String
  | .u16 => "u16"
  | .u32 => "u32"
  | .u64 => "u64"
  | .i32 => "i32"

def AttributeFault.message : AttributeFault → String
  | .noByte => "empty u8 attribute"
  | .tooShort width => s!"truncated {width.name} attribute"
  | .badText fault => s!"invalid UTF-8: {fault.message}"
  | .payloadTooLong type size =>
    s!"attribute {type} payload of {size} bytes does not fit a u16 length"
  | .nestTooLong size => s!"nested attribute of {size} bytes does not fit a u16 length"
  | .stated text => text

namespace Error

def message : Error → String
  | .io fault => s!"I/O error: {fault.message}"
  | .kernel errno detail =>
    s!"kernel error: {Errno.describe errno} (errno {errno})"
      ++ (detail.map (": " ++ ·)).getD ""
  | .kernelDuring operation errno => s!"{operation}: {Errno.describe errno} (errno {errno})"
  | .truncated expected actual =>
    s!"message truncated: expected {expected} bytes, got {actual}"
  | .messageFull capacity required =>
    s!"message exceeded bound of {capacity} bytes (needs {required})"
  | .framing fault => s!"netlink framing error: {fault.message}"
  | .endOfFile => "EOF on netlink"
  | .closed => "netlink socket is closed"
  | .timedOut => "timed out waiting for netlink reply"
  | .invalidMessage fault => s!"invalid message: {fault.message}"
  | .invalidAttribute fault => s!"invalid attribute: {fault.message}"
  | .familyNotFound name => s!"generic netlink family not found: {name}"
  | .interfaceNotFound name => s!"interface not found: {name}"

/-! ## Codes of the kernel

An ERROR or DONE message carries a signed code, negative for a failure. The number of an error is
the size of the code; the least code has none of its own among the positive ones and counts as the
greatest. -/

/-- The error number that a code stands for. -/
def number (code : Int32) : Nat := min code.toInt.natAbs 2147483647

def ofCode (code : Int32) (detail : Option String) : Error := .kernel (number code) detail

/-- A refusal by the kernel becomes one of `operation`; its detail is dropped. -/
def during (operation : String) : Error → Error
  | .kernel errno _ => .kernelDuring operation errno
  | e => e

/-! ## Classes -/

def errno? : Error → Option Nat
  | .kernel errno _ | .kernelDuring _ errno => some errno
  | _ => none

/-- The conversation cannot go on. -/
def isFatal : Error → Bool
  | .framing _ | .endOfFile => true
  | _ => false

def isNotFound : Error → Bool
  | .familyNotFound _ | .interfaceNotFound _ => true
  | e => e.errno? = some Errno.noEntry || e.errno? = some Errno.noDevice

def isPermissionDenied : Error → Bool
  | .io (.os number) => number = Errno.notPermitted || number = Errno.accessDenied
  | e => e.errno? = some Errno.notPermitted || e.errno? = some Errno.accessDenied

def isAlreadyExists (e : Error) : Bool := e.errno? = some Errno.alreadyExists

def isBusy (e : Error) : Bool := e.errno? = some Errno.busy

end Error
end Netlink
