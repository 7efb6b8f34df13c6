import Netlink.Conversation.Transport
import Netlink.Draft.Basic
import Netlink.Message.Ack
import Netlink.Report.Logged

/-! # The state of a conversation

Apart from its endpoint, a conversation has a counter that its requests are numbered by, the number
of the outstanding dump, a handler for acknowledgements, a sink that dumps may be copied to, and
what has been reported so far. A connection is an endpoint with such a state; an action works on a
connection and may fail, and what it did before it failed stays done. -/

namespace Netlink

/-- Something that bytes are copied to. -/
structure Sink where
  /-- What it has taken so far. -/
  taken : Bytes := []
  /-- How much it takes in all, if there is a bound. -/
  limit : Option Nat := none
  deriving DecidableEq, Repr

/-- Writes bytes to a sink. A sink that cannot take all of them takes what it can, and the write
fails. -/
def Sink.write (s : Sink) (data : Bytes) : Except Error Unit × Sink :=
  let room := match s.limit with
    | none => data.length
    | some limit => limit - s.taken.length
  let outcome := if data.length ≤ room then .ok () else .error (.io .sinkFull)
  (outcome, { s with taken := s.taken ++ data.take room })

/-- What a conversation knows apart from its endpoint. -/
structure Conversation where
  protocol : Protocol
  port : UInt32
  config : Config
  /-- The number of the latest request. -/
  seq : UInt32
  /-- The number of the outstanding dump. -/
  dumpSeq : UInt32 := 0
  handler : AckHandler := .logging
  sink : Option Sink := none
  /-- What has been reported, in order. -/
  log : List Event := []
  /-- The acknowledgements kept by a recording handler, in order. -/
  acks : List Ack := []
  deriving Repr

namespace Conversation

/-- The number that the counter starts from at a time in seconds. Starting from the time keeps
answers to an earlier conversation on the same port from being taken for answers to this one. -/
def firstSeq (seconds : Int) : UInt32 := if seconds < 0 then 0 else UInt32.ofNat seconds.toNat

def report (c : Conversation) (events : List Event) : Conversation :=
  { c with log := c.log ++ events }

def acknowledge (c : Conversation) (h : AckHandler) (a : Ack) : Conversation :=
  { c with log := c.log ++ h.log a, acks := c.acks ++ h.kept a }

def nextSeq (c : Conversation) : UInt32 := c.seq + 1

def advance (c : Conversation) : Conversation := { c with seq := c.nextSeq }

def startDump (c : Conversation) : Conversation :=
  { c with seq := c.nextSeq, dumpSeq := c.nextSeq }

def describe (c : Conversation) : String :=
  s!"Connection \x7b protocol: {c.protocol.label}, port_id: {c.port}, seq: {c.seq}"
    ++ s!", dump_seq: {c.dumpSeq}, capturing: {c.sink.isSome} \x7d"

/-- Copies bytes to the sink, if there is one. -/
def record (c : Conversation) (data : Bytes) : Except Error Unit × Conversation :=
  match c.sink with
  | none => (.ok (), c)
  | some sink =>
    let (outcome, sink) := sink.write data
    (outcome, { c with sink := some sink })

end Conversation

/-- A conversation over an endpoint. -/
structure Connection (σ : Type) where
  endpoint : σ
  state : Conversation

/-- Something done over a connection that may fail. What it did to the connection stays, whether it
fails or not. -/
abbrev Action (σ α : Type) := ExceptT Error (StateM (Connection σ)) α

namespace Connection

variable {σ : Type} [Transport σ]

/-- A conversation over an endpoint that is open, begun at a time in seconds. -/
def start (endpoint : σ) (config : Config) (seconds : Int) : Connection σ where
  endpoint
  state := {
    protocol := Transport.protocol endpoint
    port := Transport.port endpoint
    config
    seq := Conversation.firstSeq seconds }

/-- Sends pieces as one datagram. -/
def send (pieces : List Bytes) : Action σ Unit := fun c =>
  let state := c.state.report [.sent pieces.length pieces.flatten.length]
  let (outcome, endpoint) := Transport.send pieces c.endpoint
  (outcome, ⟨endpoint, state⟩)

def peek : Action σ (Option Bytes) := fun c =>
  let (outcome, endpoint) := Transport.peek c.endpoint
  (outcome, { c with endpoint })

def close (c : Connection σ) : Connection σ :=
  let (endpoint, log) := Transport.close c.endpoint
  ⟨endpoint, c.state.report log⟩

def nextSeq : Action σ UInt32 := fun c => (.ok c.state.nextSeq, { c with state := c.state.advance })

/-- Reports what a decoding reports, and fails if it fails. -/
def reading {α : Type} (x : Decoded α) : Action σ α := fun c =>
  (x.result, { c with state := c.state.report x.log })

/-- Fails if a step failed before anything was done. -/
def settling {α : Type} (x : Except Error α) : Action σ α := fun c => (x, c)

def mapError {α : Type} (f : Error → Error) (x : Action σ α) : Action σ α := fun c =>
  match x c with
  | (.ok a, c) => (.ok a, c)
  | (.error e, c) => (.error (f e), c)

end Connection

/-! ## Readers -/

/-- What a reader makes of a datagram: it wants another, or it has finished. -/
inductive Verdict (β α : Type) where
  | more (state : Conversation) (memory : β)
  | finished (state : Conversation) (memory : β) (result : Except Error α)

/-- What takes datagrams one after another. It keeps a memory from one to the next. -/
structure Reader (β α : Type) where
  /-- It goes on after the receive buffer overflowed. -/
  survivesOverrun : Bool
  step : Datagram → Conversation → β → Verdict β α

def IoFault.isOverrun (f : IoFault) : Bool := f = .os Errno.noBufferSpace

/-- Hands datagrams to a reader until it has finished or a receive fails. -/
def Connection.drain {σ β α : Type} [Transport σ] (r : Reader β α) (c : Connection σ) (memory : β) :
    (Except Error α × β) × Connection σ :=
  match _h : Transport.receive c.state.config.timeout c.endpoint with
  | (.ok d, endpoint) =>
    let state := c.state.report [.received d.data.length d.sender d.truncated]
    match r.step d state memory with
    | .more state memory => drain r ⟨endpoint, state⟩ memory
    | .finished state memory result => ((result, memory), ⟨endpoint, state⟩)
  | (.error (.io fault), endpoint) =>
    if r.survivesOverrun && fault.isOverrun then
      drain r ⟨endpoint, c.state.report [.overrun]⟩ memory
    else ((.error (.io fault), memory), ⟨endpoint, c.state⟩)
  | (.error e, endpoint) => ((.error e, memory), ⟨endpoint, c.state⟩)
termination_by Transport.pending c.endpoint
decreasing_by
  · exact Transport.pending_of_datagram _h
  · exact Transport.pending_of_fault _h

/-- What becomes of a message that is handed to someone: an updated memory, perhaps a failure, and
what was reported. -/
abbrev Handled (β : Type) := Logged (Except Error Unit × β)

namespace Handled

/-- It was taken without a word. -/
def taken {β : Type} (memory : β) : Handled β := ⟨(.ok (), memory), []⟩

/-- It was refused without a word. -/
def refused {β : Type} (e : Error) (memory : β) : Handled β := ⟨(.error e, memory), []⟩

/-- Something was read from it, and either was put to use or could not be read. -/
def reading {α β : Type} (x : Decoded α) (memory : β) (use : α → β) : Handled β :=
  match x.result with
  | .ok a => ⟨(.ok (), use a), x.log⟩
  | .error e => ⟨(.error e, memory), x.log⟩

end Handled

end Netlink
