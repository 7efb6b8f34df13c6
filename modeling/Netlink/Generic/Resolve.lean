import Netlink.Conversation.Exchange
import Netlink.Generic.Family

/-! # Finding a family of the generic protocol

The controller, whose own number is fixed, is asked for a family by name. -/

namespace Netlink

namespace Family

def getRequest (name : String) : Except Error Draft := do
  let header : GenericHeader := { command := getCommand, version := 1 }
  let d ← (Draft.new MessageType.controller MessageFlag.request).addRaw header.encode
  d.add (Attribute.ofText nameType name)

/-- The kernel has no entry: no family has the name. -/
def missing (name : String) (e : Error) : Error :=
  if e.errno? = some Errno.noEntry then .familyNotFound name else e

def readMessage (bytes : Bytes) : Decoded Family := do
  let header ← Decoded.ofExcept (Header.decode bytes)
  if header.type ≠ MessageType.controller then
    throw (.invalidMessage (.notAFamily header.type))
  read (header.payloadIn bytes)

end Family

def Connection.family {σ : Type} [Transport σ] (name : String) : Action σ Family := do
  let d ← settling (Family.getRequest name)
  let answer ← mapError (Family.missing name) (ask d)
  reading (Family.readMessage answer)

end Netlink
