import Netlink.Conversation.State
import Netlink.Message.Frame

/-! # Listening to notifications

A listener is handed every message that arrives, whoever sent it and whatever its number, until it
fails or a receive does. When the receive buffer overflows, notifications are lost; that is
reported and listening goes on. -/

namespace Netlink

/-- Someone who is handed notifications, each with the number of the network namespace it comes
from. -/
abbrev Listener (β : Type) := Int32 → Message → β → Handled β

namespace Listener

/-- The number that stands for a namespace that is not known. -/
def unknownNamespace : Int32 := -1

def deliver {β : Type} (l : Listener β) (namespaceId : Int32) (sender : UInt32) :
    List Frame → Conversation → β → Conversation × β × Except Error Unit
  | [], c, memory => (c, memory, .ok ())
  | f :: fs, c, memory =>
    let ⟨(result, memory), log⟩ := l namespaceId (f.message sender) memory
    let c := c.report log
    match result with
    | .error e => (c, memory, .error e)
    | .ok () => deliver l namespaceId sender fs c memory

/-- What is wrong with a datagram. In one that lost its end, a message that does not fit is cut
short, and bytes that are no message are its beginning. -/
def complaint? (d : Datagram) (w : Frame.Walk) : Option Error :=
  if d.truncated then w.fault.map fun declared => .truncated declared w.rest.length
  else w.complaint?

def step {β : Type} (l : Listener β) (d : Datagram) (c : Conversation) (memory : β) :
    Verdict β Unit :=
  let w := Frame.walk d.data
  match deliver l (d.namespaceId.getD unknownNamespace) d.sender w.frames c memory with
  | (c, memory, .error e) => .finished c memory (.error e)
  | (c, memory, .ok ()) =>
    match complaint? d w with
    | some e => .finished c memory (.error e)
    | none =>
      .more (if d.truncated then c.report [.cutShort d.data.length] else c) memory

def reader {β : Type} (l : Listener β) : Reader β Unit where
  survivesOverrun := true
  step := step l

end Listener

/-- Hands everything that arrives to a listener, until it fails or a receive does. -/
def Connection.listen {σ β : Type} [Transport σ] (l : Listener β) (memory : β) :
    StateM (Connection σ) (Except Error Unit × β) := fun c => c.drain (Listener.reader l) memory

end Netlink
