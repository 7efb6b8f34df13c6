import Netlink.Conversation.Dump
import Netlink.Proofs.Endpoint.Due
import Netlink.Proofs.Message.Replies

/-! # A dump as one stream of messages

A dump is cut into datagrams wherever the kernel likes. What a consumer is handed, and how the dump
ends, is read off the list of all messages in all datagrams: the consumer gets the messages of the
dump in front of the first DONE or ERROR among them, up to the first that it refuses, and the result
is that refusal, or what the DONE or the ERROR says, or the failure that came instead. -/

namespace Netlink

/-- The message with flags cleared in its header. -/
def Message.clearing (flags : UInt16) (m : Message) : Message :=
  { m with header := m.header.clearing flags }

theorem Message.clearing_zero (m : Message) : m.clearing 0 = m := by
  have hflags : m.header.flags &&& ~~~(0 : UInt16) = m.header.flags := by simp
  rw [clearing, Header.clearing, hflags]

namespace Consumer

variable {β : Type}

/-- Hands messages over in order, up to the first that is refused. -/
def hand (k : Consumer β) : List Message → β → Except Error Unit × β
  | [], memory => (.ok (), memory)
  | m :: ms, memory =>
    match (k.accept m memory).value with
    | (.error e, memory) => (.error e, memory)
    | (.ok (), memory) => k.hand ms memory

/-- The messages that are handed over: all of them, or those up to the first that is refused. -/
def handed (k : Consumer β) : List Message → β → List Message
  | [], _ => []
  | m :: ms, memory =>
    match (k.accept m memory).value with
    | (.error _, _) => [m]
    | (.ok (), memory) => m :: k.handed ms memory

/-- The same consumer, keeping beside its memory a list of the messages it was handed. -/
def traced (k : Consumer β) : Consumer (β × List Message) where
  clears := k.clears
  accept m s :=
    let ⟨(result, memory), log⟩ := k.accept m s.1
    ⟨(result, (memory, s.2 ++ [m])), log⟩

theorem hand_traced (k : Consumer β) (ms : List Message) (memory : β) (calls : List Message) :
    k.traced.hand ms (memory, calls) =
      ((k.hand ms memory).1, ((k.hand ms memory).2, calls ++ k.handed ms memory)) := by
  induction ms generalizing memory calls with
  | nil => simp [hand, handed]
  | cons m ms ih =>
    obtain ⟨⟨⟨result, memory'⟩, log⟩, h⟩ : ∃ x, k.accept m memory = x := ⟨_, rfl⟩
    have htraced : k.traced.accept m (memory, calls) =
        ⟨(result, (memory', calls ++ [m])), log⟩ := by
      simp only [traced, h]
    cases result with
    | error e => simp [hand, handed, h, htraced]
    | ok u => simp [hand, handed, h, htraced, ih]

end Consumer

namespace Dump

/-! ## What the stream says -/

/-- The message is from the kernel, for this port, and of the dump with this number. -/
def related (port number : UInt32) (m : Message) : Bool :=
  m.sender = 0 && m.header.pid = port && m.header.seq = number

/-- The message is DONE or ERROR. -/
def ends (m : Message) : Bool := m.header.isDone || m.header.isError

/-- The messages of the dump in front of the first that ends it. -/
def objects (port number : UInt32) (ms : List Message) : List Message :=
  (ms.filter (related port number)).takeWhile (!ends ·)

/-- The first message of the dump that ends it. -/
def ending? (port number : UInt32) (ms : List Message) : Option Message :=
  (ms.filter (related port number)).find? ends

/-- What DONE says: a negative code is a failure. -/
def doneResult (m : Message) : Except Error Unit :=
  if m.payload.length < 4 then .error (.truncated 4 m.payload.length)
  else if 0 ≤ m.code then .ok ()
  else .error (.kernel (Error.number m.code) ((Ack.ofDone m.header m.payload).value.bind (·.text)))

/-- What ERROR says: a failure, except that the sockets protocol may have nothing to dump. -/
def errorResult (protocol : Protocol) (m : Message) : Except Error Unit :=
  if m.payload.length < ErrorReply.size then .error (.truncated ErrorReply.size m.payload.length)
  else if protocol = .sockDiag ∧
      (Error.number m.code = Errno.noEntry ∨ Error.number m.code = Errno.notSupported) then .ok ()
  else .error m.refusal

/-- What the message that ends a dump says. -/
def endResult (protocol : Protocol) (m : Message) : Except Error Unit :=
  if m.header.isDone then doneResult m else errorResult protocol m

theorem onDone_result (c : Conversation) (m : Message) :
    (onDone c m.header m.payload).1 = doneResult m := by
  unfold onDone doneResult
  split
  · rename_i hshort
    rw [if_pos (Wire.split?_eq_none_iff.mp hshort)]
  · rename_i front rest hsplit
    have hlength := Wire.length_of_split? hsplit
    rw [if_neg (by omega), Message.code_of_split? hsplit]
    dsimp only
    split <;> split <;> rfl

theorem onError_result (c : Conversation) (m : Message) :
    (onError c m.header m.payload).1 = errorResult c.protocol m := by
  unfold onError errorResult
  by_cases hshort : m.payload.length < ErrorReply.size
  · rw [ErrorReply.decode_of_short hshort, if_pos hshort]
  · have hcode := ErrorReply.code_ofBytes_take m.payload
    rw [← Message.code] at hcode
    rw [ErrorReply.decode_of_long hshort, if_neg hshort]
    dsimp only
    rw [hcode]
    by_cases hbenign : c.protocol = .sockDiag ∧
        (Error.number m.code = Errno.noEntry ∨ Error.number m.code = Errno.notSupported)
    · rw [if_pos (by simpa using hbenign), if_pos hbenign]
    · rw [if_neg (by simpa using hbenign), if_neg hbenign]
      rfl

/-! ## Following the stream -/

/-- How far a consumer comes along a stream. -/
inductive Course where
  | going
  | refused (e : Error)
  /-- The dump was ended by this message, as whoever acts on it sees it. -/
  | ended (m : Message)

/-- Hands the messages of the dump to a consumer one by one. Flags are cleared from an ERROR, not
from DONE. -/
def follow {β : Type} (k : Consumer β) (port number : UInt32) : List Message → β → Course × β
  | [], memory => (.going, memory)
  | m :: ms, memory =>
    if !related port number m then follow k port number ms memory
    else if m.header.isDone then (.ended m, memory)
    else if m.header.isError then (.ended (m.clearing k.clears), memory)
    else match (k.accept (m.clearing k.clears) memory).value with
      | (.error e, memory) => (.refused e, memory)
      | (.ok (), memory) => follow k port number ms memory

variable {β : Type}

/-- A stream is followed piece by piece. -/
theorem follow_append (k : Consumer β) (port number : UInt32) (ms later : List Message)
    (memory : β) :
    follow k port number (ms ++ later) memory =
      match follow k port number ms memory with
      | (.going, memory) => follow k port number later memory
      | stopped => stopped := by
  induction ms generalizing memory with
  | nil => rfl
  | cons m ms ih =>
    simp only [List.cons_append, follow]
    split
    · exact ih memory
    · split
      · rfl
      · split
        · rfl
        · split
          · rfl
          · exact ih _

/-- Where a consumer comes to, in terms of the stream alone. -/
theorem follow_eq (k : Consumer β) (port number : UInt32) (ms : List Message) (memory : β) :
    follow k port number ms memory =
      match k.hand ((objects port number ms).map (Message.clearing k.clears)) memory with
      | (.error e, memory) => (.refused e, memory)
      | (.ok (), memory) =>
        (match ending? port number ms with
          | none => .going
          | some m => .ended (if m.header.isDone then m else m.clearing k.clears), memory) := by
  induction ms generalizing memory with
  | nil => rfl
  | cons m ms ih =>
    cases hrelated : related port number m with
    | false =>
      simp only [follow, objects, ending?, hrelated, List.filter_cons] at ih ⊢
      exact ih memory
    | true =>
      cases hdone : m.header.isDone with
      | true => simp [follow, objects, ending?, hrelated, ends, hdone, Consumer.hand]
      | false =>
        cases herror : m.header.isError with
        | true => simp [follow, objects, ending?, hrelated, ends, hdone, herror, Consumer.hand]
        | false =>
          obtain ⟨⟨result, memory'⟩, haccept⟩ :
            ∃ x, (k.accept (m.clearing k.clears) memory).value = x := ⟨_, rfl⟩
          cases result with
          | error e =>
            simp [follow, objects, hrelated, ends, hdone, herror, Consumer.hand, haccept]
          | ok u =>
            have hrest := ih memory'
            simp only [objects, ending?] at hrest
            simp [follow, objects, ending?, hrelated, ends, hdone, herror, Consumer.hand, haccept,
              hrest]

/-! ## One datagram -/

/-- The conversation at the end of a walk. -/
def Walked.state : Walked β → Conversation
  | .through p | .atDone p => p.state
  | .over c _ _ => c

theorem onError_bare (c : Conversation) (h : Header) (payload : Bytes) :
    (onError c h payload).2.bare = c.bare := by
  unfold onError
  split
  · rfl
  · dsimp only
    split
    · rfl
    · split
      · rfl
      · split
        · rfl
        · split <;> rfl

theorem deliver_bare (k : Consumer β) (sender : UInt32) (fs : List Frame) (p : Progress β) :
    (deliver k sender fs p).state.bare = p.state.bare := by
  induction fs generalizing p with
  | nil => rfl
  | cons f fs ih =>
    unfold deliver
    dsimp only
    split
    · exact ih _
    · split
      · rfl
      · split
        · exact onError_bare ..
        · split
          · rfl
          · exact ih _

theorem deliverAll_bare (d : Datagram) (w : Frame.Walk) (ks : List (Consumer β)) (p : Progress β) :
    (deliverAll d w ks p).state.bare = p.state.bare := by
  induction ks generalizing p with
  | nil => rfl
  | cons k ks ih =>
    have hwalk := deliver_bare k d.sender w.frames p
    unfold deliverAll
    split
    · rename_i hover
      rw [hover] at hwalk
      exact hwalk
    · rename_i q hdone
      rw [hdone] at hwalk
      exact (ih q).trans hwalk
    · rename_i q hthrough
      rw [hthrough] at hwalk
      split
      · exact hwalk
      · exact (ih q).trans hwalk

theorem record_config (c : Conversation) (data : Bytes) : (c.record data).2.config = c.config := by
  unfold Conversation.record
  split <;> rfl

/-- A walk over messages that began with the conversation `c`, and with `done` for the first DONE
found before, comes as far as the stream leads. -/
def Agrees (c : Conversation) (done : Option (Header × Bytes)) : Course × β → Walked β → Prop
  | (.going, memory), .through p => p.memory = memory ∧ p.found.done = done
  | (.refused e, memory), .over _ memory' result => memory' = memory ∧ result = .error e
  | (.ended m, memory), .atDone p =>
    m.header.isDone = true ∧ p.memory = memory ∧
      p.found.done = (done <|> some (m.header, m.payload))
  | (.ended m, memory), .over _ memory' result =>
    m.header.isDone = false ∧ memory' = memory ∧ result = errorResult c.protocol m
  | _, _ => False

theorem deliver_agrees (k : Consumer β) (sender : UInt32) (fs : List Frame) (p : Progress β) :
    Agrees p.state p.found.done
      (follow k p.state.port p.state.dumpSeq (fs.map (Frame.message sender)) p.memory)
      (deliver k sender fs p) := by
  induction fs generalizing p with
  | nil => exact ⟨rfl, rfl⟩
  | cons f fs ih =>
    let m := f.message sender
    have hrelated : related p.state.port p.state.dumpSeq m =
        belongs p.state sender (f.header.clearing k.clears) := rfl
    rw [List.map_cons, follow, deliver, hrelated]
    cases hours : belongs p.state sender (f.header.clearing k.clears) with
    | false =>
      let event := Event.foreignToDump sender f.header.pid f.header.seq p.state.dumpSeq
      exact ih { p with state := p.state.report [event] }
    | true =>
      cases hdone : f.header.isDone with
      | true =>
        have hcleared : (f.header.clearing k.clears).isDone = true := hdone
        simp only [Bool.not_true, Bool.false_eq_true, if_false, Frame.message, hdone, hcleared]
        exact ⟨hdone, rfl, rfl⟩
      | false =>
        have hcleared : (f.header.clearing k.clears).isDone = false := hdone
        cases herror : f.header.isError with
        | true =>
          have hfailed : (f.header.clearing k.clears).isError = true := herror
          simp only [Bool.not_true, Bool.false_eq_true, if_false, Frame.message, hdone, hcleared,
            herror, hfailed]
          exact ⟨hcleared, rfl, onError_result p.state (m.clearing k.clears)⟩
        | false =>
          have hobject : (f.header.clearing k.clears).isError = false := herror
          obtain ⟨⟨⟨result, memory⟩, log⟩, haccept⟩ :
            ∃ x, k.accept (m.clearing k.clears) p.memory = x := ⟨_, rfl⟩
          have hmessage : k.accept ⟨sender, f.header.clearing k.clears, f.bytes⟩ p.memory =
            ⟨(result, memory), log⟩ := haccept
          simp only [Bool.not_true, Bool.false_eq_true, if_false, Frame.message, hdone, hcleared,
            herror, hobject, hmessage]
          cases result with
          | error e =>
            simp only [Message.clearing, hmessage]
            exact ⟨rfl, rfl⟩
          | ok u =>
            simp only [Message.clearing, hmessage]
            let interrupted := p.found.interrupted || (f.header.clearing k.clears).isInterrupted
            exact ih ⟨p.state.report log, memory, { p.found with interrupted }⟩

/-- What the dump makes of a datagram, in a conversation `c`, is where the stream leads. -/
def Concludes (c : Conversation) : Course × β → Verdict β Unit → Prop
  | (.going, memory), .more c' memory' => memory' = memory ∧ c'.bare = c.bare
  | (.refused e, memory), .finished _ memory' result => memory' = memory ∧ result = .error e
  | (.ended m, memory), .finished _ memory' result =>
    memory' = memory ∧ result = endResult c.protocol m
  | _, _ => False

theorem step_concludes (k : Consumer β) {c : Conversation} {d : Datagram} {ps : List Packet}
    (memory : β) (hsink : c.sink = none) (hwhole : d.truncated = false)
    (hrun : d.data = Packet.records ps) :
    Concludes c (follow k c.port c.dumpSeq (ps.map (Packet.message d.sender)) memory)
      (step [k] d c memory) := by
  obtain ⟨hmessages, hnofault, hempty⟩ := Frame.walk_of_records hrun d.sender
  have hagrees := deliver_agrees k d.sender (Frame.walk d.data).frames ⟨c, memory, {}⟩
  have hbare := deliver_bare k d.sender (Frame.walk d.data).frames ⟨c, memory, {}⟩
  have hrecord : c.record d.data = (.ok (), c) := by rw [Conversation.record, hsink]
  rw [hmessages] at hagrees
  unfold step
  rw [hrecord]
  simp only [deliverAll, hnofault, hempty, hwhole, ite_self, Bool.false_eq_true, if_false,
    List.isEmpty_nil, Bool.or_true, if_true]
  generalize follow k c.port c.dumpSeq (ps.map (Packet.message d.sender)) memory = course at *
  generalize deliver k d.sender (Frame.walk d.data).frames ⟨c, memory, {}⟩ = walked at *
  obtain ⟨course, memory'⟩ := course
  cases course with
  | going =>
    rcases walked with p | p | ⟨c', memory', result⟩
    · obtain ⟨hmemory, hdone⟩ := hagrees
      dsimp only
      rw [hdone]
      exact ⟨hmemory, hbare⟩
    · exact hagrees.elim
    · exact hagrees.elim
  | refused e =>
    rcases walked with p | p | ⟨c', memory', result⟩
    · exact hagrees.elim
    · exact hagrees.elim
    · exact hagrees
  | ended m =>
    rcases walked with p | p | ⟨c', memory', result⟩
    · exact hagrees.elim
    · -- the walk stopped at DONE, which is the first that was found and is acted on now
      obtain ⟨hisDone, hmemory, hdone⟩ := hagrees
      have hresult := onDone_result p.state m
      have hend : endResult c.protocol m = doneResult m := if_pos hisDone
      rw [← hresult] at hend
      have hfirst : p.found.done = some (m.header, m.payload) := hdone
      dsimp only
      rw [hfirst]
      dsimp only
      cases hacted : onDone p.state m.header m.payload with
      | mk result c' =>
        rw [hacted] at hend
        cases result with
        | error e => exact ⟨hmemory, hend.symm⟩
        | ok u => exact ⟨hmemory, hend.symm⟩
    · -- the walk acted on an ERROR at once
      obtain ⟨herror, hmemory, hresult⟩ := hagrees
      refine ⟨hmemory, ?_⟩
      rw [hresult, endResult, herror]
      rfl

/-! ## All datagrams -/

theorem steady_reader (ks : List (Consumer β)) : (reader ks).Steady := by
  intro d c memory c' memory' hmore
  have hkept : ∀ {c₁ : Conversation} {walked : Walked β}, c.record d.data = (.ok (), c₁) →
      deliverAll d (Frame.walk d.data) ks ⟨c₁, memory, {}⟩ = walked →
      walked.state.config = c.config := by
    intro c₁ walked hrecord hwalk
    have hbare := deliverAll_bare d (Frame.walk d.data) ks ⟨c₁, memory, {}⟩
    have hconfig := record_config c d.data
    rw [hrecord] at hconfig
    rw [hwalk] at hbare
    exact (Conversation.eq_of_bare hbare).2.2.1.trans hconfig
  change step ks d c memory = .more c' memory' at hmore
  revert hmore
  fun_cases step ks d c memory <;> intro hmore
  case case5 hrecord _ _ hwalk _ _ | case6 hrecord _ _ hwalk _ _ _ |
      case10 hrecord _ _ hwalk _ _ | case11 hrecord _ _ hwalk _ _ _ =>
    injection hmore with hstate
    rw [← hstate]
    exact hkept hrecord hwalk
  all_goals contradiction

theorem fold_follow (k : Consumer β) {ds : List Datagram} {ms : List Message}
    (hcarries : Carries ds ms) (failure : Error) {c : Conversation} (hsink : c.sink = none)
    (memory : β) :
    (reader [k]).fold failure ds c memory =
      match follow k c.port c.dumpSeq ms memory with
      | (.going, memory) => (.error failure, memory)
      | (.refused e, memory) => (.error e, memory)
      | (.ended m, memory) => (endResult c.protocol m, memory) := by
  induction hcarries generalizing c memory with
  | nil => rfl
  | @cons d ds ms ps hwhole hrun _ ih =>
    let c₁ := c.report [.received d.data.length d.sender d.truncated]
    have hconcludes := step_concludes k (c := c₁) memory hsink hwhole hrun
    change Concludes _ (follow k c.port c.dumpSeq (ps.map (Packet.message d.sender)) memory)
      ((reader [k]).step d _ memory) at hconcludes
    rw [Reader.fold, follow_append]
    generalize (reader [k]).step d (c.report [.received d.data.length d.sender d.truncated])
      memory = verdict at *
    generalize follow k c.port c.dumpSeq (ps.map (Packet.message d.sender)) memory = course at *
    obtain ⟨course, memory'⟩ := course
    cases course with
    | going =>
      cases verdict with
      | more c' memory'' =>
        obtain ⟨hmemory, hbare⟩ := hconcludes
        obtain ⟨hprotocol, hport, -, hnumber, hsink'⟩ := Conversation.eq_of_bare hbare
        subst hmemory
        have hlater := ih (hsink'.trans hsink) memory''
        rw [hport, hnumber, hprotocol] at hlater
        exact hlater
      | finished c' memory'' result => exact hconcludes.elim
    | refused e =>
      cases verdict with
      | more c' memory'' => exact hconcludes.elim
      | finished c' memory'' result =>
        obtain ⟨hmemory, hresult⟩ := hconcludes
        rw [hmemory, hresult]
    | ended m =>
      cases verdict with
      | more c' memory'' => exact hconcludes.elim
      | finished c' memory'' result =>
        obtain ⟨hmemory, hresult⟩ := hconcludes
        rw [hmemory, hresult]
        rfl

/-- What a dump comes to whose consumer sees messages as they are: the consumer's refusal, or what
the message that ends the dump says, or the failure that came instead. -/
def outcome (k : Consumer β) (c : Conversation) (ms : List Message) (failure : Error)
    (memory : β) : Except Error Unit :=
  match (k.hand (objects c.port c.dumpSeq ms) memory).1 with
  | .error e => .error e
  | .ok () =>
    match ending? c.port c.dumpSeq ms with
    | some m => endResult c.protocol m
    | none => .error failure

theorem fold_outcome {k : Consumer β} (hclears : k.clears = 0) {ds : List Datagram}
    {ms : List Message} (hcarries : Carries ds ms) (failure : Error) {c : Conversation}
    (hsink : c.sink = none) (memory : β) :
    (reader [k]).fold failure ds c memory =
      (outcome k c ms failure memory, (k.hand (objects c.port c.dumpSeq ms) memory).2) := by
  have hsame : Message.clearing k.clears = id := by
    funext m
    rw [hclears, Message.clearing_zero, id]
  rw [fold_follow k hcarries failure hsink, follow_eq, hsame, List.map_id, outcome]
  rcases k.hand (objects c.port c.dumpSeq ms) memory with ⟨_ | _, memory'⟩
  · rfl
  · cases ending? c.port c.dumpSeq ms with
    | none => rfl
    | some m => simp

/-- **The cuts do not show.** Over any endpoint whose datagrams are whole and runs of packets, what
the consumer is handed, what it makes of it and how the dump ends are read off the messages. The
second half is about the same consumer with its calls written down. -/
theorem readDump_of_stream {σ : Type} [Transport σ] (accept : Message → β → Handled β)
    (c : Connection σ) (memory : β) {ms : List Message} (hsink : c.state.sink = none)
    (hstream : Carries (Transport.arrivals c.state.config.timeout c.endpoint).1 ms) :
    let k : Consumer β := { accept }
    let failure := (Transport.arrivals c.state.config.timeout c.endpoint).2
    let wanted := objects c.state.port c.state.dumpSeq ms
    let result := outcome k c.state ms failure memory
    (Connection.readDump [k] memory c).1 = (result, (k.hand wanted memory).2) ∧
      (Connection.readDump [k.traced] (memory, []) c).1 =
        (result, ((k.hand wanted memory).2, k.handed wanted memory)) := by
  intro k failure wanted result
  have hfold : ∀ {γ : Type} (k : Consumer γ) (memory : γ),
      (Connection.readDump [k] memory c).1 =
        (reader [k]).fold failure (Transport.arrivals c.state.config.timeout c.endpoint).1 c.state
          memory := by
    intro γ k memory
    exact Connection.drain_eq_fold rfl (steady_reader [k]) c memory
  have hplain : k.clears = 0 := rfl
  have htraced : k.traced.clears = 0 := rfl
  refine ⟨?_, ?_⟩
  · rw [hfold, fold_outcome hplain hstream failure hsink]
  · have hcalls := k.hand_traced wanted memory []
    have hresult : outcome k.traced c.state ms failure (memory, []) = result := by
      rw [outcome, hcalls]
      rfl
    rw [hfold, fold_outcome htraced hstream failure hsink, hresult, hcalls, List.nil_append]

/-- A message of type 16 to port 42 that carries the number of a dump. -/
def sampleObject (number : UInt32) (payload : Bytes) (h : headerSize + payload.length < UInt32.size) :
    Packet :=
  .fitting ⟨0, 16, MessageFlag.multi, number, 42⟩ payload h

/-- The message that ends the dump with this number well. -/
def sampleDone (number : UInt32) : Packet :=
  .fitting ⟨0, MessageType.done, MessageFlag.multi, number, 42⟩ [0, 0, 0, 0] (by decide)

/-- A consumer that takes everything without a word, when flags have been cleared. -/
def sampleTaker (clears : UInt16) : Consumer Unit where
  clears
  accept _ memory := .taken memory

/-- Three datagrams: an object of an earlier dump and one of this, DONE from someone who is not the
kernel, and another object with DONE and more behind it. -/
def sampleStream : List (UInt32 × List Packet) :=
  [(0, [sampleObject 6 [1] (by decide), sampleObject 7 [1, 2, 3] (by decide)]),
    (9, [sampleDone 7]),
    (0, [sampleObject 7 [4, 5] (by decide), sampleDone 7, sampleObject 7 [6] (by decide)])]

/-- A conversation that waits for dump 7, over an endpoint that brings that stream. -/
def sampleDump : Connection Script where
  endpoint := { queue := sampleStream.map fun (sender, ps) =>
    { outcome := .datagram { data := Packet.records ps, sender } } }
  state := { protocol := .route, port := 42, config := {}, seq := 7, dumpSeq := 7 }

theorem readDump_of_stream_sample :
    let accept : Message → List Bytes → Handled (List Bytes) :=
      fun m taken => .taken (taken ++ [m.payload])
    let ms := sampleStream.flatMap fun (sender, ps) => ps.map (Packet.message sender)
    sampleDump.state.sink = none ∧
      Carries (Transport.arrivals sampleDump.state.config.timeout sampleDump.endpoint).1 ms ∧
      (Connection.readDump [{ accept }] [] sampleDump).1 = (.ok (), [[1, 2, 3], [4, 5]]) := by
  intro accept ms
  have hsink : sampleDump.state.sink = none := rfl
  have hdue : Transport.arrivals sampleDump.state.config.timeout sampleDump.endpoint =
      Script.due none sampleDump.endpoint.queue := Script.arrivals_eq_due rfl none
  have hstream :
      Carries (Transport.arrivals sampleDump.state.config.timeout sampleDump.endpoint).1 ms := by
    rw [hdue]
    exact .cons _ rfl rfl (.cons _ rfl rfl (.cons _ rfl rfl .nil))
  refine ⟨hsink, hstream, ?_⟩
  rw [(readDump_of_stream accept sampleDump [] hsink hstream).1]
  rfl

/-- A conversation that waits for dump 7 and may copy it, over an endpoint that brings these
datagrams. -/
def sampleArrivals (ds : List Datagram) (sink : Option Sink) : Connection Script where
  endpoint := { queue := ds.map fun d => { outcome := .datagram d } }
  state := { protocol := .route, port := 42, config := {}, seq := 7, dumpSeq := 7, sink }

theorem arrivals_sample (ds : List Datagram) (sink : Option Sink) :
    Transport.arrivals none (sampleArrivals ds sink).endpoint = (ds, .endOfFile) := by
  rw [← Script.due_datagrams]
  exact Script.arrivals_eq_due rfl none

end Dump
end Netlink
