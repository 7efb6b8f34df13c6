import Netlink.Attribute.Table
import Netlink.Message.Header

/-! # Acknowledgements

The kernel answers a request with an ERROR message: a code, zero for success, and the request it
answers, or only the request's header if the answer is capped. A socket that asked for it also gets
attributes: a text, and an offset into the message. The DONE message that ends a dump carries a code
and may carry a text in the same way. -/

namespace Netlink

/-- The fixed part of an ERROR message. -/
structure ErrorReply where
  code : Int32
  /-- The header of the request that is answered. -/
  request : Header
  deriving DecidableEq, Repr

namespace ErrorReply

def size : Nat := 20

def ofBytes (bs : Bytes) : ErrorReply :=
  ⟨(Wire.word32 bs).toInt32, Header.ofBytes (bs.drop 4)⟩

def decode (payload : Bytes) : Except Error ErrorReply :=
  match Wire.split? size payload with
  | some (front, _) => .ok (ofBytes front)
  | none => .error (.truncated size payload.length)

/-- The request succeeded. -/
def isAck (r : ErrorReply) : Bool := r.code = 0

/-- The attributes behind the fixed part and, unless the answer is capped, behind the rest of the
request that is answered. -/
def attributeBytes (r : ErrorReply) (flags : UInt16) (payload : Bytes) : Bytes :=
  let echoed := if flags &&& MessageFlag.capped = 0 then r.request.payloadSize else 0
  payload.drop (size + echoed)

end ErrorReply

/-- What the kernel says with an ERROR or a DONE message. -/
structure Ack where
  code : Int32
  text : Option String := none
  /-- Where in the request the fault lies. -/
  offset : Option UInt32 := none
  /-- The header of the request that is answered. -/
  request : Option Header := none
  deriving DecidableEq, Repr

namespace Ack

def textType : UInt16 := 1

def offsetType : UInt16 := 2

def maxType : UInt16 := 3

/-- The attributes of the message are there to be read. -/
def announced (header : Header) : Bool := header.has MessageFlag.ackAttributes

/-- The text, if there is one and it is a text. -/
def textOf (t : Attribute.Table) : Option String :=
  (t.get? textType).bind fun a => a.text.toOption

/-- The offset, if there is one; one that is past the end of the message is reported and taken as
zero. -/
def offsetOf (header : Header) (t : Attribute.Table) : Logged (Option UInt32) :=
  match (t.get? offsetType).bind fun a => a.u32.toOption with
  | none => pure none
  | some offset =>
    if header.length < offset then do
      Logged.tell [.badOffset offset]
      return some 0
    else pure (some offset)

/-- What an ERROR message says in its attributes, if it has any. -/
def ofError (header : Header) (payload : Bytes) : Logged (Option Ack) :=
  if announced header then
    match ErrorReply.decode payload with
    | .error _ => pure none
    | .ok reply => do
      let table ← Attribute.Table.read maxType (reply.attributeBytes header.flags payload)
      let offset ← offsetOf header table
      let request := if header.has MessageFlag.capped then none else some reply.request
      return some ⟨reply.code, textOf table, offset, request⟩
  else pure none

/-- What a DONE message says in its attributes, if it has any. -/
def ofDone (header : Header) (payload : Bytes) : Logged (Option Ack) :=
  if announced header then
    match Wire.split? 4 payload with
    | none => pure none
    | some (front, rest) => do
      let table ← Attribute.Table.read maxType rest
      return some ⟨(Wire.word32 front).toInt32, textOf table, none, none⟩
  else pure none

def hasText (a : Ack) : Bool := a.text.any (!·.isEmpty)

def isError (a : Ack) : Bool := a.code ≠ 0

def report (a : Ack) : List Event :=
  match a.text.filter (!·.isEmpty) with
  | none => []
  | some text => if a.isError then [.kernelError text a.code] else [.kernelWarning text]

end Ack

/-! ## Who hears of acknowledgements -/

/-- What is done with an acknowledgement that reaches the conversation. -/
inductive AckHandler where
  /-- The kernel's text is written to the log, as an error if the request failed. -/
  | logging
  /-- The acknowledgement is kept for the caller, who has settled whether it counts as reported. -/
  | recording (reported : Bool)
  deriving DecidableEq, Repr, Inhabited

namespace AckHandler

/-- The acknowledgement counts as reported, so that nothing more is said about the failure. -/
def reports (h : AckHandler) (a : Ack) : Bool :=
  match h with
  | .logging => a.hasText && a.isError
  | .recording reported => reported

def log (h : AckHandler) (a : Ack) : List Event :=
  match h with
  | .logging => a.report
  | .recording _ => []

def kept (h : AckHandler) (a : Ack) : List Ack :=
  match h with
  | .logging => []
  | .recording _ => [a]

end AckHandler
end Netlink
