import Netlink.Conversation.State
import Netlink.Message.Frame

/-! # Reading a dump

The kernel answers a dump with any number of datagrams, and a DONE message ends it. A message
belongs to the dump if it comes from the kernel, is addressed to this port and carries the dump's
number. Each datagram is walked once for every consumer, which is handed the messages of the dump
one by one with certain flags cleared. DONE is acted on once, after all consumers have come to it;
an ERROR message or a consumer that fails ends the dump at once. -/

namespace Netlink

/-- Someone who is handed the messages of a dump. -/
structure Consumer (β : Type) where
  /-- Flags that are cleared before anything is made of a message. -/
  clears : UInt16 := 0
  accept : Message → β → Handled β

namespace Dump

structure Findings where
  /-- The first DONE message, as it was received. -/
  done : Option (Header × Bytes) := none
  /-- A message said that objects changed while they were dumped. -/
  interrupted : Bool := false
  deriving DecidableEq, Repr

/-- How far the walks over a datagram have come. -/
structure Progress (β : Type) where
  state : Conversation
  memory : β
  found : Findings

inductive Walked (β : Type) where
  /-- All messages were looked at. -/
  | through (p : Progress β)
  /-- The walk came to DONE. -/
  | atDone (p : Progress β)
  /-- The dump is over. -/
  | over (state : Conversation) (memory : β) (result : Except Error Unit)

def belongs (c : Conversation) (sender : UInt32) (h : Header) : Bool :=
  sender = 0 && h.pid = c.port && h.seq = c.dumpSeq

/-- What an ERROR message means for the dump. For the sockets protocol, having nothing to dump is no
failure. -/
def onError (c : Conversation) (h : Header) (payload : Bytes) : Except Error Unit × Conversation :=
  match ErrorReply.decode payload with
  | .error e => (.error e, c.report [.shortError])
  | .ok reply =>
    let errno := Error.number reply.code
    if c.protocol = .sockDiag && (errno = Errno.noEntry || errno = Errno.notSupported) then
      (.ok (), c.report [.noSockets errno])
    else
      let ⟨ack, log⟩ := Ack.ofError h payload
      let c := c.report log
      let c :=
        if c.config.quiet then c
        else match ack with
          | none => c.report [.dumpRefused errno]
          | some a =>
            let c := c.acknowledge c.handler a
            if c.handler.reports a then c else c.report [.dumpRefused errno]
      (.error (Error.ofCode reply.code (ack.bind (·.text))), c)

/-- What is said about a dump that DONE breaks off. Not finding anything is not worth a word. -/
def doneReport (errno : Nat) : List Event :=
  if errno = Errno.noEntry || errno = Errno.notSupported then []
  else if errno = Errno.messageTooLong then [.objectTooLarge]
  else [.dumpRefused errno]

/-- What the DONE message means for the dump: a negative code is a failure. The handler hears of the
acknowledgement in either case. -/
def onDone (c : Conversation) (h : Header) (payload : Bytes) : Except Error Unit × Conversation :=
  match Wire.split? 4 payload with
  | none => (.error (.truncated 4 payload.length), c.report [.shortDone])
  | some (front, _) =>
    let code := (Wire.word32 front).toInt32
    let ⟨ack, log⟩ := Ack.ofDone h payload
    let c := c.report log
    let (reported, c) := match ack with
      | none => (false, c)
      | some a => (c.handler.reports a, c.acknowledge c.handler a)
    if 0 ≤ code then (.ok (), c)
    else
      let c :=
        if reported || c.config.quiet then c else c.report (doneReport (Error.number code))
      (.error (Error.ofCode code (ack.bind (·.text))), c)

def deliver {β : Type} (k : Consumer β) (sender : UInt32) : List Frame → Progress β → Walked β
  | [], p => .through p
  | f :: fs, p =>
    let h := f.header.clearing k.clears
    if !belongs p.state sender h then
      let event := .foreignToDump sender h.pid h.seq p.state.dumpSeq
      deliver k sender fs { p with state := p.state.report [event] }
    else
      let found := { p.found with interrupted := p.found.interrupted || h.isInterrupted }
      if h.isDone then
        .atDone { p with found := { found with done := found.done <|> some (f.header, f.payload) } }
      else if h.isError then
        let (result, state) := onError p.state h f.payload
        .over state p.memory result
      else
        let ⟨(result, memory), log⟩ := k.accept ⟨sender, h, f.bytes⟩ p.memory
        let state := p.state.report log
        match result with
        | .error e => .over state memory (.error e)
        | .ok () => deliver k sender fs ⟨state, memory, found⟩

/-- Walks a datagram once for each consumer. A walk that does not come to DONE has to come to the
end, unless the datagram lost its end anyway. -/
def deliverAll {β : Type} (d : Datagram) (w : Frame.Walk) :
    List (Consumer β) → Progress β → Walked β
  | [], p => .through p
  | k :: ks, p =>
    match deliver k d.sender w.frames p with
    | .over state memory result => .over state memory result
    | .atDone p => deliverAll d w ks p
    | .through p =>
      match if d.truncated then none else w.error? with
      | some e => .over p.state p.memory (.error e)
      | none => deliverAll d w ks p

/-- What the dump makes of a datagram. Without a consumer nobody looks at what is left over. -/
def step {β : Type} (ks : List (Consumer β)) (d : Datagram) (c : Conversation) (memory : β) :
    Verdict β Unit :=
  match c.record d.data with
  | (.error e, c) => .finished c memory (.error e)
  | (.ok (), c) =>
    let w := Frame.walk d.data
    match deliverAll d w ks ⟨c, memory, {}⟩ with
    | .over c memory result => .finished c memory result
    | .through p | .atDone p =>
      match p.found.done with
      | some (h, payload) =>
        match onDone p.state h payload with
        | (.error e, c) => .finished c p.memory (.error e)
        | (.ok (), c) =>
          let c := if p.found.interrupted then c.report [.dumpInterrupted] else c
          .finished c p.memory (.ok ())
      | none =>
        if d.truncated then .more (p.state.report [.cutShort d.data.length]) p.memory
        else if ks.isEmpty || w.rest.isEmpty then .more p.state p.memory
        else .finished p.state p.memory (.error (.framing (.remnant w.rest.length)))

def reader {β : Type} (ks : List (Consumer β)) : Reader β Unit where
  survivesOverrun := false
  step := step ks

end Dump

/-- Reads the outstanding dump, handing every message of it to every consumer. -/
def Connection.readDump {σ β : Type} [Transport σ] (ks : List (Consumer β)) (memory : β) :
    StateM (Connection σ) (Except Error Unit × β) := fun c => c.drain (Dump.reader ks) memory

end Netlink
