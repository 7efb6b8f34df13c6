import Netlink.Conversation.Dump
import Netlink.Draft.Script
import Netlink.Link.Basic

/-! # Asking for a dump

A dump is asked for by one request, which is numbered like any other; its number is also that of the
outstanding dump. The number is only taken when the request has been built, so that a request that
cannot be built changes nothing. -/

namespace Netlink

def MessageFlag.dumpRequest : UInt16 := MessageFlag.dump ||| MessageFlag.request

namespace Dump

/-- A request for a dump with no more than its family. -/
def plainRequest (family : UInt8) (type : UInt16) : Except Error Draft :=
  (Draft.new type MessageFlag.dumpRequest).addRaw [family]

/-- The fixed part that asks for interfaces of a family. -/
def interfaceInfo (family : UInt8) : Bytes := { family : InterfaceInfo }.encode

/-- A request for interfaces with certain details. -/
def linkRequest (family : UInt8) (type : UInt16) (details : UInt32) : Except Error Draft := do
  let d ← (Draft.new type MessageFlag.dumpRequest).addRaw (interfaceInfo family)
  d.add (Attribute.ofU32 Link.detailType details)

def statisticsRequest (family : UInt8) (type : UInt16) (mask : UInt32) : Except Error Draft :=
  (Draft.new type MessageFlag.dumpRequest).addRaw (StatisticsRequest.encode ⟨family, mask⟩)

/-- Bytes that a request has for the caller's own attributes. -/
def criteriaRoom : Nat := 1024

def filledRequest (family : UInt8) (type : UInt16) (fill : Draft → Except Error Draft) :
    Except Error Draft := do
  let capacity := headerSize + InterfaceInfo.size + criteriaRoom
  let d ← (Draft.withCapacity type MessageFlag.dumpRequest capacity).addRaw
    (interfaceInfo family)
  fill d

/-- The draft with attributes added by steps, all of which have to succeed. -/
def addCriteria (steps : List Draft.Step) (d : Draft) : Except Error Draft := do
  return (← (Draft.Work.start d).build steps).draft

def criteriaRequest (family : UInt8) (type : UInt16) (steps : List Draft.Step) :
    Except Error Draft :=
  filledRequest family type (addCriteria steps)

end Dump

namespace Connection

variable {σ : Type} [Transport σ]

def startDump : Action σ UInt32 := fun c =>
  (.ok c.state.nextSeq, { c with state := c.state.startDump })

def sendDump (d : Draft) : Action σ Unit := do
  let seq ← startDump
  send [((d.setPid 0).setSeq seq).encode]

/-- Asks for a dump with no more than its family. -/
def requestDump (family : UInt8) (type : UInt16) : Action σ Unit := do
  sendDump (← settling (Dump.plainRequest family type))

def requestLinks (family : UInt8) (type : UInt16) (details : UInt32) : Action σ Unit := do
  sendDump (← settling (Dump.linkRequest family type details))

def requestAllLinks (family : UInt8) (type : UInt16) : Action σ Unit :=
  requestLinks family type Link.virtualFunctions

/-- Asks for a dump whose fixed part is given, sent as a piece of its own behind the header. -/
def requestDumpWith (type : UInt16) (fixed : Bytes) : Action σ Unit := do
  let seq ← startDump
  let length := UInt32.ofNat (headerSize + fixed.length)
  send [Header.encode ⟨length, type, MessageFlag.dumpRequest, seq, 0⟩, fixed]

/-- Asks for a dump by a request that is already built. -/
def requestDumpBy (d : Draft) : Action σ Unit := sendDump (d.addFlags MessageFlag.dumpRequest)

def requestDumpFilling (family : UInt8) (type : UInt16) (fill : Draft → Except Error Draft) :
    Action σ Unit := do
  sendDump (← settling (Dump.filledRequest family type fill))

def requestDumpBuilding (family : UInt8) (type : UInt16) (steps : List Draft.Step) :
    Action σ Unit :=
  requestDumpFilling family type (Dump.addCriteria steps)

def requestStatistics (family : UInt8) (type : UInt16) (mask : UInt32) : Action σ Unit := do
  sendDump (← settling (Dump.statisticsRequest family type mask))

/-- Reads the outstanding dump with one consumer that keeps what it has gathered only if the dump
succeeds. -/
def gather {β : Type} (k : Consumer β) (memory : β) : Action σ β := fun c =>
  match readDump [k] memory c with
  | ((.ok (), memory), c) => (.ok memory, c)
  | ((.error e, _), c) => (.error e, c)

def gatherBytes : Consumer (List Bytes) where
  accept m gathered := .taken (gathered ++ [m.bytes])

def dump (d : Draft) : Action σ (List Bytes) := do
  requestDumpBy d
  gather gatherBytes []

end Connection
end Netlink
