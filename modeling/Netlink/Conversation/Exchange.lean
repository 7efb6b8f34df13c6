import Netlink.Conversation.State
import Netlink.Message.Frame

/-! # Requests and their answers

Requests are numbered one after another and sent as one datagram. An answer comes from the kernel,
is addressed to this port and carries one of these numbers; whatever else arrives is passed over.
The wait ends with the first refusal, with the acknowledgement of the last request, or, where an
answer is wanted, with the first answer of any kind. A datagram without its end is no answer at
all, while a datagram that is not a run of whole messages ends the wait, for nothing after it could
be trusted. -/

namespace Netlink

/-- What is being waited for. -/
structure Exchange where
  protocol : Protocol
  port : UInt32
  /-- The number of the last request. -/
  last : UInt32
  /-- How many requests were numbered, up to `last`. -/
  count : UInt32
  /-- The first answer is wanted as it is. -/
  wantsAnswer : Bool
  /-- Refusals are kept out of the log. -/
  quiet : Bool
  handler : AckHandler
  deriving Repr

namespace Exchange

/-- A number is one of the last `count` up to `last`. -/
def inWindow (last count seq : UInt32) : Bool := last - seq < count

def answers (x : Exchange) (sender : UInt32) (h : Header) : Bool :=
  sender = 0 && h.pid = x.port && inWindow x.last x.count h.seq

/-- Reports a refusal, unless that is not wanted. The sockets protocol refuses as a matter of course,
so there a refusal is never reported. -/
def reportRefusal (x : Exchange) (h : Header) (a : Ack) (c : Conversation) : Conversation :=
  if x.quiet || x.protocol = .sockDiag then c
  else
    let c := c.acknowledge x.handler a
    if x.handler.reports a then c else c.report [.requestRefused a.code h.seq]

/-- The acknowledgement in an ERROR message, with or without attributes. -/
def ackOf (h : Header) (payload : Bytes) (reply : ErrorReply) : Logged Ack := do
  return (← Ack.ofError h payload).getD { code := reply.code }

/-- Looks at messages in order for one that decides the wait. The decision is a failure, success, or
success with the answer that was wanted. -/
def judge (x : Exchange) (sender : UInt32) :
    List Frame → Conversation → Conversation × Option (Except Error (Option Bytes))
  | [], c => (c, none)
  | f :: fs, c =>
    if !x.answers sender f.header then
      judge x sender fs (c.report [.foreignToRequest sender f.header.pid f.header.seq x.last])
    else if f.header.isError then
      match ErrorReply.decode f.payload with
      | .error e => (c.report [.shortError], some (.error e))
      | .ok reply =>
        let ⟨ack, log⟩ := ackOf f.header f.payload reply
        let c := c.report log
        if reply.isAck then
          let c := c.acknowledge x.handler ack
          if x.wantsAnswer then (c, some (.ok (some f.bytes)))
          else if f.header.seq = x.last then (c, some (.ok none))
          else judge x sender fs c
        else (x.reportRefusal f.header ack c, some (.error (Error.ofCode reply.code ack.text)))
    else if x.wantsAnswer then (c, some (.ok (some f.bytes)))
    else judge x sender fs (c.report [.unexpectedReply f.header.type f.header.seq])

def step (x : Exchange) (d : Datagram) (c : Conversation) (_ : Unit) :
    Verdict Unit (Option Bytes) :=
  if d.truncated then .more (c.report [.cutShort d.data.length]) ()
  else
    let w := Frame.walk d.data
    match x.judge d.sender w.frames c with
    | (c, some result) => .finished c () result
    | (c, none) =>
      match w.complaint? with
      | some e => .finished c () (.error e)
      | none => .more c ()

def reader (x : Exchange) : Reader Unit (Option Bytes) where
  survivesOverrun := false
  step := x.step

/-! ## Asking -/

/-- Numbers requests in order. A request that asks for no answer asks for an acknowledgement. -/
def stamp (wantsAnswer : Bool) : List Draft → Conversation → List Draft × Conversation
  | [], c => ([], c)
  | d :: ds, c =>
    let c := c.advance
    let d := d.setSeq c.seq
    let d := if wantsAnswer then d else d.addFlags MessageFlag.ack
    let (ds, c) := stamp wantsAnswer ds c
    (d :: ds, c)

end Exchange

namespace Connection

variable {σ : Type} [Transport σ]

/-- Sends requests as one datagram and waits for what decides them. -/
def exchange (requests : List Draft) (wantsAnswer quiet : Bool) (handler : AckHandler) :
    Action σ (Option Bytes) := do
  if requests.isEmpty then throw (.invalidMessage .emptyBatch)
  let c ← get
  let (stamped, state) := Exchange.stamp wantsAnswer requests c.state
  set { c with state }
  send (stamped.map Draft.encode)
  let x : Exchange := {
    protocol := state.protocol
    port := state.port
    last := state.seq
    count := UInt32.ofNat requests.length
    wantsAnswer, quiet, handler }
  fun c =>
    let ((result, _), c) := c.drain x.reader ()
    (result, c)

/-- Sends several requests as one datagram and waits until the last is acknowledged. The first
refusal ends the wait. -/
def requestAll (requests : List Draft) : Action σ Unit := do
  let c ← get
  let _ ← exchange requests false c.state.config.quiet c.state.handler

def request (d : Draft) : Action σ Unit := requestAll [d]

/-- Like `request`, with another handler for the acknowledgement. -/
def requestReporting (d : Draft) (handler : AckHandler) : Action σ Unit := do
  let c ← get
  let _ ← exchange [d] false c.state.config.quiet handler

/-- Like `request`, keeping a refusal out of the log. -/
def requestQuietly (d : Draft) : Action σ Unit := do
  let c ← get
  let _ ← exchange [d] false true c.state.handler

/-- Sends a request and waits for the first answer, which is the result as it was received. -/
def ask (d : Draft) : Action σ Bytes := do
  let c ← get
  match ← exchange [d] true c.state.config.quiet c.state.handler with
  | some answer => return answer
  | none => throw (.invalidMessage .noReply)

/-! ## Sending without waiting -/

def post (message : Bytes) : Action σ Unit := send [message]

def firstError? (fs : List Frame) : Option Frame := fs.find? (·.header.isError)

/-- Sends a message, and looks whether the kernel has already refused it. What has arrived stays
where it is. -/
def postChecked (message : Bytes) : Action σ Unit := do
  post message
  match ← peek with
  | none => return
  | some arrived =>
    match firstError? (Frame.walk arrived).frames with
    | none => return
    | some f =>
      match ErrorReply.decode f.payload with
      | .error e => do
        modify fun c => { c with state := c.state.report [.shortError] }
        throw e
      | .ok reply => if reply.isAck then return else throw (Error.ofCode reply.code none)

end Connection
end Netlink
