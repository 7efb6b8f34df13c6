import Netlink.Conversation.DumpRequest
import Netlink.Conversation.Exchange

/-! # Asking about interfaces and changing them

An interface is addressed by its name. When the kernel knows no interface of that name, the failure
says so; any other failure stays what it is. -/

namespace Netlink

namespace Link

/-- A request about the interface of a name. -/
def namedRequest (type : UInt16) (info : InterfaceInfo) (name : String) : Except Error Draft := do
  let d ← (Draft.new type MessageFlag.request).addRaw info.encode
  d.add (Attribute.ofText nameType name)

/-- A request for one interface with its virtual functions. -/
def getRequest (name : String) : Except Error Draft := do
  let d ← namedRequest MessageType.getLink {} name
  d.add (Attribute.ofU32 detailType virtualFunctions)

def stateRequest (name : String) (up : Bool) : Except Error Draft :=
  let flags := if up then DeviceFlag.up else 0
  namedRequest MessageType.setLink { flags, change := DeviceFlag.up } name

/-- A request to change how long a packet may be. -/
def mtuRequest (name : String) (mtu : UInt32) : Except Error Draft := do
  let d ← namedRequest MessageType.setLink {} name
  d.add (Attribute.ofU32 mtuType mtu)

def deleteRequest (name : String) : Except Error Draft := namedRequest MessageType.delLink {} name

/-- The kernel knows no device: no interface has the name. -/
def missing (name : String) (e : Error) : Error :=
  if e.errno? = some Errno.noDevice then .interfaceNotFound name else e

/-- Adds the interface that a message describes to a list; other messages are passed over. -/
def collect (m : Message) (links : List Link) : Handled (List Link) :=
  if m.header.type = MessageType.newLink then
    .reading (read m.payload) links fun link => links ++ [link]
  else .taken links

end Link

namespace Connection

variable {σ : Type} [Transport σ]

def links : Action σ (List Link) := do
  requestAllLinks 0 MessageType.getLink
  gather { accept := Link.collect } []

def linkNamed (name : String) : Action σ Link := do
  let d ← settling (Link.getRequest name)
  let answer ← mapError (Link.missing name) (ask d)
  reading (Link.readMessage answer)

def setLinkState (name : String) (up : Bool) : Action σ Unit := do
  let d ← settling (Link.stateRequest name up)
  mapError (Link.missing name) (request d)

def setLinkMtu (name : String) (mtu : UInt32) : Action σ Unit := do
  let d ← settling (Link.mtuRequest name mtu)
  mapError (Link.missing name) (request d)

def deleteLink (name : String) : Action σ Unit := do
  let d ← settling (Link.deleteRequest name)
  mapError (Link.missing name) (request d)

end Connection
end Netlink
