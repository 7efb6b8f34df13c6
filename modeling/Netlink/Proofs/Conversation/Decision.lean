import Netlink.Conversation.Exchange
import Netlink.Proofs.Endpoint.Due
import Netlink.Proofs.Message.Replies

/-! # What decides a request

Someone who waits for the answers to requests sees signs: the messages of all datagrams that have
their end, in order, whatever is wrong with a datagram behind its messages, and at last the failure
of a receive. The first sign that settles the matter is the result, and all others might as well not
have been there. -/

namespace Netlink
namespace Exchange

/-! ## Numbers -/

/-- The numbers that so many requests get after the number `seq`. -/
def numbers (seq : UInt32) (count : Nat) : List UInt32 :=
  (List.range count).map fun i => seq + 1 + UInt32.ofNat i

theorem numbers_succ (seq : UInt32) (count : Nat) :
    numbers seq (count + 1) = (seq + 1) :: numbers (seq + 1) count := by
  have hnext : ∀ i, seq + 1 + UInt32.ofNat (i + 1) = seq + 1 + 1 + UInt32.ofNat i := by
    intro i
    rw [UInt32.ofNat_add, UInt32.add_comm (UInt32.ofNat i), ← UInt32.add_assoc]
    rfl
  rw [numbers, List.range_succ_eq_map, List.map_cons, List.map_map]
  congr 1
  · exact UInt32.add_zero _
  · exact List.map_congr_left fun i _ => hnext i

/-- Requests are numbered one after another, and nothing else of the conversation changes. -/
theorem stamp_eq (wantsAnswer : Bool) (requests : List Draft) (c : Conversation) :
    (stamp wantsAnswer requests c).1.map Draft.seq = numbers c.seq requests.length ∧
      (stamp wantsAnswer requests c).2 =
        { c with seq := c.seq + UInt32.ofNat requests.length } := by
  induction requests generalizing c with
  | nil => exact ⟨rfl, by simp [stamp]⟩
  | cons d ds ih =>
    obtain ⟨hnumbers, hstate⟩ := ih c.advance
    have hseq : c.advance.seq = c.seq + 1 := rfl
    have hflags : ∀ d' : Draft,
        (if wantsAnswer then d' else d'.addFlags MessageFlag.ack).seq = d'.seq := by
      intro d'
      cases wantsAnswer <;> rfl
    constructor
    · rw [List.length_cons, numbers_succ, ← hseq, ← hnumbers, stamp, List.map_cons, hflags]
      rfl
    · rw [stamp]
      dsimp only
      rw [hstate, hseq, List.length_cons, UInt32.ofNat_add,
        UInt32.add_comm (UInt32.ofNat ds.length), ← UInt32.add_assoc]
      rfl

/-- The window that ends at the last of some numbers is these numbers. -/
theorem inWindow_iff {count : Nat} (hcount : count < UInt32.size) (seq number : UInt32) :
    inWindow (seq + UInt32.ofNat count) (UInt32.ofNat count) number = true ↔
      number ∈ numbers seq count := by
  have hsize : (UInt32.ofNat count).toNat = count := UInt32.toNat_ofNat_of_lt' hcount
  have hseq := seq.toNat_lt
  have hnumber := number.toNat_lt
  simp only [UInt32.size] at hcount
  -- how far the number is behind the last
  have hplace := UInt32.toNat_sub (seq + UInt32.ofNat count) number
  rw [UInt32.toNat_add, hsize] at hplace
  rw [inWindow, decide_eq_true_iff, UInt32.lt_iff_toNat_lt, hsize, numbers, List.mem_map]
  generalize (seq + UInt32.ofNat count - number).toNat = place at hplace ⊢
  constructor
  · intro hin
    refine ⟨count - 1 - place, ?_, ?_⟩
    · rw [List.mem_range]
      omega
    · apply UInt32.toNat_inj.mp
      rw [UInt32.toNat_add, UInt32.toNat_add, UInt32.toNat_ofNat']
      simp only [UInt32.toNat_one]
      omega
  · rintro ⟨i, hi, rfl⟩
    rw [List.mem_range] at hi
    rw [UInt32.toNat_add, UInt32.toNat_add, UInt32.toNat_ofNat'] at hplace
    simp only [UInt32.toNat_one] at hplace
    omega

theorem getLast?_numbers {count : Nat} (hsome : 0 < count) (seq : UInt32) :
    (numbers seq count).getLast? = some (seq + UInt32.ofNat count) := by
  obtain ⟨before, rfl⟩ : ∃ before, count = before + 1 := ⟨count - 1, by omega⟩
  rw [numbers, List.range_succ, List.map_append, List.map_singleton, List.getLast?_concat,
    UInt32.ofNat_add, UInt32.add_comm (UInt32.ofNat before), UInt32.add_assoc]
  rfl

/-! ## Signs -/

/-- One thing that someone who waits for answers comes upon. -/
inductive Sign where
  | message (m : Message)
  /-- A record that is no message, bytes left over, or the failure of a receive. -/
  | failure (e : Error)
  deriving DecidableEq

/-- The signs in a datagram. One without its end has none. -/
def signs (d : Datagram) : List Sign :=
  if d.truncated then []
  else
    let w := Frame.walk d.data
    w.frames.map (.message <| ·.message d.sender) ++ w.complaint?.toList.map .failure

/-- The signs in a run of packets are their messages. -/
theorem signs_of_records {d : Datagram} {ps : List Packet} (hwhole : d.truncated = false)
    (hrun : d.data = Packet.records ps) :
    signs d = (ps.map (Packet.message d.sender)).map .message := by
  obtain ⟨hmessages, hnofault, hempty⟩ := Frame.walk_of_records hrun d.sender
  have hclean : (Frame.walk d.data).complaint? = none := by
    rw [Frame.Walk.complaint?, hnofault, hempty]
    rfl
  rw [← hmessages, List.map_map, signs, hwhole]
  simp only [Bool.false_eq_true, if_false, hclean, Option.toList_none, List.map_nil,
    List.append_nil]
  rfl

/-- The signs in some datagrams, and the failure behind them. -/
def stream (arrivals : List Datagram × Error) : List Sign :=
  arrivals.1.flatMap signs ++ [.failure arrivals.2]

/-- The message is an ERROR from the kernel for this port that answers one of the requests: it is
too short, or a refusal, or the acknowledgement of the last request. -/
def decisive (port : UInt32) (numbers : List UInt32) (m : Message) : Bool :=
  m.sender = 0 && m.header.pid = port && m.header.seq ∈ numbers && m.header.isError &&
    (m.payload.length < ErrorReply.size || m.code ≠ 0 || numbers.getLast? = some m.header.seq)

/-- What an ERROR message says about the request that it answers. -/
def verdict (m : Message) : Except Error Unit :=
  if m.payload.length < ErrorReply.size then
    .error (.truncated ErrorReply.size m.payload.length)
  else if m.code = 0 then .ok ()
  else .error m.refusal

theorem verdict_eq_ok {m : Message} :
    verdict m = .ok () ↔ ErrorReply.size ≤ m.payload.length ∧ m.code = 0 := by
  unfold verdict
  by_cases hshort : m.payload.length < ErrorReply.size
  · rw [if_pos hshort]
    constructor
    · intro h
      cases h
    · intro h
      omega
  · rw [if_neg hshort]
    by_cases hzero : m.code = 0
    · rw [if_pos hzero]
      exact ⟨fun _ => ⟨Nat.le_of_not_lt hshort, hzero⟩, fun _ => rfl⟩
    · simp [hzero]

/-- A decisive message that reports success answers the last request. -/
theorem last_of_decisive {port : UInt32} {numbers : List UInt32} {m : Message}
    (h : decisive port numbers m = true) (hok : verdict m = .ok ()) :
    numbers.getLast? = some m.header.seq := by
  obtain ⟨hlong, hzero⟩ := verdict_eq_ok.mp hok
  simp only [decisive, Bool.and_eq_true, Bool.or_eq_true, decide_eq_true_eq] at h
  rcases h.2 with (hshort | hcode) | hlast
  · omega
  · exact absurd hzero hcode
  · exact hlast

namespace Sign

/-- The sign ends the wait. -/
def settles (port : UInt32) (numbers : List UInt32) : Sign → Bool
  | message m => decisive port numbers m
  | failure _ => true

/-- What the wait comes to if this sign ends it. -/
def outcome : Sign → Except Error Unit
  | message m => verdict m
  | failure e => .error e

/-- The sign ends a wait for messages of a kind. -/
def ends (p : Message → Bool) : Sign → Bool
  | message m => p m
  | failure _ => true

/-- What a wait comes to that this sign ends, from what the messages say. -/
def comesTo {α : Type} (meaning : Message → Except Error α) : Sign → Except Error α
  | message m => meaning m
  | failure e => .error e

theorem settles_eq_ends (port : UInt32) (numbers : List UInt32) :
    settles port numbers = ends (decisive port numbers) := by
  funext sign
  cases sign <;> rfl

theorem comesTo_verdict {α : Type} (f : Unit → α) (sign : Sign) :
    sign.comesTo (fun m => (verdict m).map f) = sign.outcome.map f := by
  cases sign <;> rfl

end Sign

/-! ## Waiting -/

theorem bare_reportRefusal (x : Exchange) (h : Header) (a : Ack) (c : Conversation) :
    (x.reportRefusal h a c).bare = c.bare := by
  unfold reportRefusal
  split
  · rfl
  · dsimp only
    split <;> rfl

/-- What is waited for, when it is acknowledgements of requests with these numbers. -/
structure Awaits (x : Exchange) (numbers : List UInt32) : Prop where
  acknowledgement : x.wantsAnswer = false
  window : ∀ seq, inWindow x.last x.count seq = decide (seq ∈ numbers)
  last : numbers.getLast? = some x.last

theorem text_ackOf (h : Header) (payload : Bytes) (reply : ErrorReply) :
    (ackOf h payload reply).value.text = (Ack.ofError h payload).value.bind (·.text) := by
  rw [ackOf, Logged.value_bind, Logged.value_pure]
  cases (Ack.ofError h payload).value with
  | none => rfl
  | some a => rfl

theorem Awaits.decisive_eq {x : Exchange} {numbers : List UInt32} (hx : x.Awaits numbers)
    (m : Message) :
    decisive x.port numbers m =
      (x.answers m.sender m.header && m.header.isError &&
        (m.payload.length < ErrorReply.size || m.code ≠ 0 || m.header.seq = x.last)) := by
  have hlast : decide (numbers.getLast? = some m.header.seq) = decide (m.header.seq = x.last) := by
    apply decide_eq_decide.mpr
    rw [hx.last, Option.some.injEq]
    exact eq_comm
  rw [decisive, answers, hx.window, hlast]

/-- An ERROR that answers a request is decisive or passed over. -/
theorem judge_error {x : Exchange} {numbers : List UInt32} (hx : x.Awaits numbers)
    {sender : UInt32} {f : Frame} (hours : x.answers sender f.header = true)
    (herror : f.header.isError = true) (fs : List Frame) (c : Conversation) :
    ∃ c', (x.judge sender (f :: fs) c).2 =
      if decisive x.port numbers (f.message sender) then
        some ((verdict (f.message sender)).map fun _ => none)
      else (x.judge sender fs c').2 := by
  let m := f.message sender
  have hm : x.answers m.sender m.header = true := hours
  have hkind : m.header.isError = true := herror
  have hpayload : f.payload = m.payload := rfl
  rw [hx.decisive_eq m, hm, hkind, judge, hours, herror, hpayload]
  simp only [Bool.not_true, Bool.true_and, Bool.false_eq_true, if_false, if_true]
  by_cases hshort : m.payload.length < ErrorReply.size
  · have hverdict : verdict m = .error (.truncated ErrorReply.size m.payload.length) :=
      if_pos hshort
    simp only [ErrorReply.decode_of_short hshort, hshort, decide_true, Bool.true_or, if_true]
    rw [hverdict]
    exact ⟨c, rfl⟩
  · have hverdict : verdict m = if m.code = 0 then .ok () else .error m.refusal := if_neg hshort
    let reply := ErrorReply.ofBytes (m.payload.take ErrorReply.size)
    have hcode : reply.code = m.code := ErrorReply.code_ofBytes_take m.payload
    have htext := text_ackOf f.header m.payload reply
    simp only [ErrorReply.decode_of_long hshort, hshort, decide_false, Bool.false_or,
      ErrorReply.isAck, reply, hcode, hx.acknowledgement, Bool.false_eq_true, if_false]
    by_cases hzero : m.code = 0
    · rw [if_pos hzero] at hverdict
      by_cases hlast : m.header.seq = x.last
      · have hlast' : f.header.seq = x.last := hlast
        refine ⟨c, ?_⟩
        simp [hzero, hlast, hlast', m, hverdict, Except.map]
      · have hlast' : ¬ f.header.seq = x.last := hlast
        simp only [hzero, hlast, hlast', ne_eq, not_true_eq_false, decide_false, decide_true,
          Bool.or_false, Bool.false_eq_true, if_true, if_false]
        exact ⟨_, rfl⟩
    · rw [if_neg hzero] at hverdict
      simp only [hzero, ne_eq, not_false_eq_true, decide_true, decide_false, Bool.true_or,
        Bool.false_eq_true, if_false, if_true]
      refine ⟨c, ?_⟩
      rw [hverdict, htext]
      rfl

/-- A message is decisive or passed over. -/
theorem judge_cons {x : Exchange} {numbers : List UInt32} (hx : x.Awaits numbers)
    (sender : UInt32) (f : Frame) (fs : List Frame) (c : Conversation) :
    ∃ c', (x.judge sender (f :: fs) c).2 =
      if decisive x.port numbers (f.message sender) then
        some ((verdict (f.message sender)).map fun _ => none)
      else (x.judge sender fs c').2 := by
  have hdecisive := hx.decisive_eq (f.message sender)
  change decisive _ _ _ = (x.answers sender f.header && f.header.isError && _) at hdecisive
  cases hours : x.answers sender f.header with
  | false =>
    rw [hdecisive, judge, hours]
    exact ⟨_, rfl⟩
  | true =>
    cases herror : f.header.isError with
    | false =>
      rw [hdecisive, judge, hours, herror, hx.acknowledgement]
      exact ⟨_, rfl⟩
    | true => exact judge_error hx hours herror fs c

/-- What decides the wait is the first message of a kind, by what it says. -/
def DecidedBy (x : Exchange) (p : Message → Bool) (meaning : Message → Except Error (Option Bytes)) :
    Prop :=
  ∀ sender fs c,
    (x.judge sender fs c).2 = ((fs.map (Frame.message sender)).find? p).map meaning

theorem DecidedBy.of_cons {x : Exchange} {p : Message → Bool}
    {meaning : Message → Except Error (Option Bytes)}
    (h : ∀ sender f fs c, ∃ c', (x.judge sender (f :: fs) c).2 =
      if p (f.message sender) then some (meaning (f.message sender)) else (x.judge sender fs c').2) :
    x.DecidedBy p meaning := by
  intro sender fs c
  induction fs generalizing c with
  | nil => rfl
  | cons f fs ih =>
    obtain ⟨c', hstep⟩ := h sender f fs c
    rw [hstep, ih c', List.map_cons, List.find?_cons]
    cases p (f.message sender) with
    | true => rfl
    | false => rfl

/-- The judgement of messages is that of the first that is decisive. -/
theorem Awaits.decidedBy {x : Exchange} {numbers : List UInt32} (hx : x.Awaits numbers) :
    x.DecidedBy (decisive x.port numbers) fun m => (verdict m).map fun _ => none :=
  .of_cons (judge_cons hx)

/-- The first sign in a datagram that ends the wait is the first message of the kind in it, or else
what is wrong with the datagram. -/
theorem find?_signs (p : Message → Bool) {d : Datagram} (hwhole : d.truncated = false) :
    (signs d).find? (Sign.ends p) =
      match ((Frame.walk d.data).frames.map (Frame.message d.sender)).find? p with
      | some m => some (.message m)
      | none => (Frame.walk d.data).complaint?.map .failure := by
  have hmessages : Sign.ends p ∘ Sign.message = p := rfl
  have hframes : (Frame.walk d.data).frames.map (fun f => Sign.message (f.message d.sender)) =
      ((Frame.walk d.data).frames.map (Frame.message d.sender)).map Sign.message := by
    rw [List.map_map]
    rfl
  rw [signs, hwhole]
  simp only [Bool.false_eq_true, if_false]
  rw [hframes, List.find?_append, List.find?_map, hmessages]
  cases ((Frame.walk d.data).frames.map (Frame.message d.sender)).find? p with
  | some m => rfl
  | none =>
    cases (Frame.walk d.data).complaint? with
    | none => rfl
    | some e => rfl

section
variable {x : Exchange} {p : Message → Bool} {meaning : Message → Except Error (Option Bytes)}

/-- A datagram ends the wait with its first sign that does so, or does not end it. -/
theorem step_eq (hx : x.DecidedBy p meaning) (d : Datagram) (c : Conversation) :
    ∃ c', x.step d c () =
      match (signs d).find? (Sign.ends p) with
      | some sign => .finished c' () (sign.comesTo meaning)
      | none => .more c' () := by
  cases htruncated : d.truncated with
  | true =>
    refine ⟨c.report [.cutShort d.data.length], ?_⟩
    rw [step, signs, htruncated]
    rfl
  | false =>
    have hjudge := hx d.sender (Frame.walk d.data).frames c
    refine ⟨(x.judge d.sender (Frame.walk d.data).frames c).1, ?_⟩
    rw [find?_signs _ htruncated, step, htruncated]
    simp only [Bool.false_eq_true, if_false]
    generalize x.judge d.sender (Frame.walk d.data).frames c = judged at hjudge ⊢
    obtain ⟨c', decision⟩ := judged
    dsimp only at hjudge
    rw [hjudge]
    cases ((Frame.walk d.data).frames.map (Frame.message d.sender)).find? p with
    | some m => rfl
    | none =>
      cases (Frame.walk d.data).complaint? with
      | none => rfl
      | some e => rfl

theorem fold_stream (hx : x.DecidedBy p meaning) (e : Error) (ds : List Datagram)
    (c : Conversation) :
    ∃ sign, (stream (ds, e)).find? (Sign.ends p) = some sign ∧
      (x.reader.fold e ds c ()).1 = sign.comesTo meaning := by
  induction ds generalizing c with
  | nil => exact ⟨.failure e, rfl, rfl⟩
  | cons d ds ih =>
    obtain ⟨c', hstep⟩ := step_eq hx d (c.report [.received d.data.length d.sender d.truncated])
    have hstream : stream (d :: ds, e) = signs d ++ stream (ds, e) := by
      rw [stream, List.flatMap_cons, List.append_assoc]
      rfl
    have hread : x.reader.step = x.step := rfl
    rw [hstream, List.find?_append, Reader.fold, hread, hstep]
    cases (signs d).find? (Sign.ends p) with
    | some sign => exact ⟨sign, rfl, rfl⟩
    | none => exact ih c'

end

theorem bare_judge (x : Exchange) (sender : UInt32) (fs : List Frame) (c : Conversation) :
    (x.judge sender fs c).1.bare = c.bare := by
  induction fs generalizing c with
  | nil => rfl
  | cons f fs ih =>
    unfold judge
    split
    · exact ih _
    · split
      · split
        · rfl
        · dsimp only
          split
          · split
            · rfl
            · split
              · rfl
              · exact ih _
          · exact bare_reportRefusal ..
      · split
        · rfl
        · exact ih _

theorem steady_reader (x : Exchange) : x.reader.Steady := by
  intro d c memory c' memory' hmore
  have hjudge := bare_judge x d.sender (Frame.walk d.data).frames c
  change x.step d c memory = .more c' memory' at hmore
  unfold step at hmore
  split at hmore
  · injection hmore with hstate
    rw [← hstate]
    rfl
  · dsimp only at hmore
    split at hmore
    · contradiction
    · rename_i c₁ hnone
      rw [hnone] at hjudge
      split at hmore
      · contradiction
      · injection hmore with hstate
        rw [← hstate]
        exact (Conversation.eq_of_bare hjudge).2.2.1

/-! ## Asking -/

/-- What is waited for after requests have been numbered. -/
def posed (requests : List Draft) (wantsAnswer quiet : Bool) (handler : AckHandler)
    (c : Conversation) : Exchange where
  protocol := (stamp wantsAnswer requests c).2.protocol
  port := (stamp wantsAnswer requests c).2.port
  last := (stamp wantsAnswer requests c).2.seq
  count := UInt32.ofNat requests.length
  wantsAnswer
  quiet
  handler

/-- The window of an exchange holds exactly the numbers of its requests. -/
theorem inWindow_posed {requests : List Draft} {wantsAnswer quiet : Bool} {handler : AckHandler}
    {c : Conversation} (hcount : requests.length < UInt32.size) (number : UInt32) :
    let x := posed requests wantsAnswer quiet handler c
    inWindow x.last x.count number = true ↔
      number ∈ (stamp wantsAnswer requests c).1.map Draft.seq := by
  intro x
  obtain ⟨hnumbers, hstate⟩ := stamp_eq wantsAnswer requests c
  have hlast : x.last = c.seq + UInt32.ofNat requests.length := congrArg Conversation.seq hstate
  rw [hnumbers, hlast]
  exact inWindow_iff hcount c.seq number

theorem awaits_posed {requests : List Draft} (hsome : requests ≠ [])
    (hcount : requests.length < UInt32.size) (quiet : Bool) (handler : AckHandler)
    (c : Conversation) :
    (posed requests false quiet handler c).Awaits ((stamp false requests c).1.map Draft.seq) := by
  refine ⟨rfl, fun seq => ?_, ?_⟩
  · exact Bool.eq_iff_iff.mpr ((inWindow_posed hcount seq).trans decide_eq_true_iff.symm)
  · obtain ⟨hnumbers, hstate⟩ := stamp_eq false requests c
    have hlast : (posed requests false quiet handler c).last =
        c.seq + UInt32.ofNat requests.length := congrArg Conversation.seq hstate
    rw [hnumbers, hlast]
    exact getLast?_numbers (List.length_pos_iff.mpr hsome) c.seq

end Exchange

theorem Action.bind_eq {σ α β : Type} (x : Action σ α) (f : α → Action σ β) (c : Connection σ) :
    (x >>= f) c = match x c with
      | (.ok a, c) => f a c
      | (.error e, c) => (.error e, c) := by
  change (match x c with | (result, c) => ExceptT.bindCont f result c) = _
  rcases x c with ⟨_ | _, c'⟩ <;> rfl

namespace Connection
open Exchange

variable {σ : Type} [Transport σ] {requests : List Draft} {c : Connection σ} {s : σ}

/-- An exchange sends its requests once they are numbered, and waits for what answers them. -/
theorem exchange_run {wantsAnswer quiet : Bool} {handler : AckHandler} (hsome : requests ≠ [])
    (c : Connection σ) :
    let x := posed requests wantsAnswer quiet handler c.state
    exchange requests wantsAnswer quiet handler c =
      match send ((stamp wantsAnswer requests c.state).1.map Draft.encode)
        ⟨c.endpoint, (stamp wantsAnswer requests c.state).2⟩ with
      | (.ok (), sent) => ((sent.drain x.reader ()).1.1, (sent.drain x.reader ()).2)
      | (.error e, sent) => (.error e, sent) := by
  intro x
  have hnonempty : requests.isEmpty = false := List.isEmpty_eq_false_iff.mpr hsome
  unfold exchange
  rw [hnonempty]
  change ((send ((stamp wantsAnswer requests c.state).1.map Draft.encode) >>= _ :
    Action σ (Option Bytes)) ⟨c.endpoint, (stamp wantsAnswer requests c.state).2⟩) = _
  rw [Action.bind_eq]
  rcases send ((stamp wantsAnswer requests c.state).1.map Draft.encode)
    ⟨c.endpoint, (stamp wantsAnswer requests c.state).2⟩ with ⟨e | _, sent⟩
  · rfl
  · rfl

/-- An exchange whose requests can be sent is the wait over what arrives afterwards. -/
theorem exchange_of_send {wantsAnswer : Bool} (quiet : Bool) (handler : AckHandler)
    (hsome : requests ≠ [])
    (hsend : Transport.send ((stamp wantsAnswer requests c.state).1.map Draft.encode) c.endpoint =
      (.ok (), s)) :
    let arrivals := Transport.arrivals c.state.config.timeout s
    ∃ state, (exchange requests wantsAnswer quiet handler c).1 =
      ((posed requests wantsAnswer quiet handler c.state).reader.fold arrivals.2 arrivals.1
        state ()).1 := by
  let pieces := (stamp wantsAnswer requests c.state).1.map Draft.encode
  let state := (stamp wantsAnswer requests c.state).2.report
    [.sent pieces.length pieces.flatten.length]
  have hsent : send pieces ⟨c.endpoint, (stamp wantsAnswer requests c.state).2⟩ =
      (.ok (), ⟨s, state⟩) := by
    rw [send, hsend]
  have hconfig : state.config = c.state.config := by
    show (stamp wantsAnswer requests c.state).2.config = c.state.config
    rw [(stamp_eq wantsAnswer requests c.state).2]
  refine ⟨state, ?_⟩
  rw [exchange_run hsome, hsent]
  dsimp only
  rw [drain_eq_fold rfl (steady_reader _), hconfig]

/-- An exchange whose requests cannot be sent fails as the send does. -/
theorem exchange_of_unsent {wantsAnswer : Bool} {e : Error} (quiet : Bool) (handler : AckHandler)
    (hsome : requests ≠ [])
    (hsend : Transport.send ((stamp wantsAnswer requests c.state).1.map Draft.encode) c.endpoint =
      (.error e, s)) :
    (exchange requests wantsAnswer quiet handler c).1 = .error e := by
  let pieces := (stamp wantsAnswer requests c.state).1.map Draft.encode
  let state := (stamp wantsAnswer requests c.state).2
  have hunsent : send pieces ⟨c.endpoint, state⟩ =
      (.error e, ⟨s, state.report [.sent pieces.length pieces.flatten.length]⟩) := by
    rw [send, hsend]
  rw [exchange_run hsome, hunsent]

/-- The result of an exchange whose requests can be sent is that of the first sign that ends the
wait. -/
theorem exchange_outcome {wantsAnswer quiet : Bool} {handler : AckHandler} {p : Message → Bool}
    {meaning : Message → Except Error (Option Bytes)} (hsome : requests ≠ [])
    (hdecided : (posed requests wantsAnswer quiet handler c.state).DecidedBy p meaning)
    (hsend : Transport.send ((stamp wantsAnswer requests c.state).1.map Draft.encode) c.endpoint =
      (.ok (), s)) :
    ∃ sign, (stream (Transport.arrivals c.state.config.timeout s)).find? (Sign.ends p) = some sign ∧
      (exchange requests wantsAnswer quiet handler c).1 = sign.comesTo meaning := by
  obtain ⟨state, hexchange⟩ := exchange_of_send quiet handler hsome hsend
  rw [hexchange]
  exact fold_stream hdecided _ _ state

omit [Transport σ] in
/-- An action that looks at the connection and then does something for its effect alone. -/
theorem get_discard_run {α : Type} (f : Connection σ → Action σ α) (c : Connection σ) :
    (do
      let c ← get
      let _ ← f c : Action σ Unit) c =
      ((f c c).1.map fun _ => (), (f c c).2) := by
  have hget : (get : Action σ (Connection σ)) c = (.ok c, c) := rfl
  rw [Action.bind_eq, hget]
  dsimp only
  rw [Action.bind_eq]
  rcases f c c with ⟨_ | _, c'⟩
  · rfl
  · rfl

theorem requestAll_run (requests : List Draft) (c : Connection σ) :
    requestAll requests c =
      let run := exchange requests false c.state.config.quiet c.state.handler c
      (run.1.map fun _ => (), run.2) :=
  get_discard_run _ c

theorem requestReporting_run (d : Draft) (handler : AckHandler) (c : Connection σ) :
    requestReporting d handler c =
      let run := exchange [d] false c.state.config.quiet handler c
      (run.1.map fun _ => (), run.2) :=
  get_discard_run _ c

theorem requestQuietly_run (d : Draft) (c : Connection σ) :
    requestQuietly d c =
      let run := exchange [d] false true c.state.handler c
      (run.1.map fun _ => (), run.2) :=
  get_discard_run _ c

theorem ask_run (d : Draft) (c : Connection σ) :
    ask d c =
      let run := exchange [d] true c.state.config.quiet c.state.handler c
      (run.1.bind fun
        | some answer => .ok answer
        | none => .error (.invalidMessage .noReply), run.2) := by
  have hget : (get : Action σ (Connection σ)) c = (.ok c, c) := rfl
  rw [ask, Action.bind_eq, hget]
  dsimp only
  rw [Action.bind_eq]
  rcases exchange [d] true c.state.config.quiet c.state.handler c with ⟨_ | _ | _, c'⟩
  · rfl
  · rfl
  · rfl

theorem requestAll_eq (requests : List Draft) (c : Connection σ) :
    (requestAll requests c).1 =
      (exchange requests false c.state.config.quiet c.state.handler c).1.map fun _ => () :=
  congrArg Prod.fst (requestAll_run requests c)

theorem ask_eq (d : Draft) (c : Connection σ) :
    (ask d c).1 =
      (exchange [d] true c.state.config.quiet c.state.handler c).1.bind fun
        | some answer => .ok answer
        | none => .error (.invalidMessage .noReply) :=
  congrArg Prod.fst (ask_run d c)

/-- The result of requests that can be sent is the outcome of the first sign that settles them. -/
theorem requestAll_outcome (hsome : requests ≠ []) (hcount : requests.length < UInt32.size)
    (hsend : Transport.send ((stamp false requests c.state).1.map Draft.encode) c.endpoint =
      (.ok (), s)) :
    ∃ sign, (stream (Transport.arrivals c.state.config.timeout s)).find?
        (Sign.settles c.state.port ((stamp false requests c.state).1.map Draft.seq)) = some sign ∧
      (requestAll requests c).1 = sign.outcome := by
  have hawaits := awaits_posed hsome hcount c.state.config.quiet c.state.handler c.state
  obtain ⟨sign, hfirst, hexchange⟩ := exchange_outcome hsome hawaits.decidedBy hsend
  have hport : (stamp false requests c.state).2.port = c.state.port := by
    rw [(stamp_eq false requests c.state).2]
  refine ⟨sign, ?_, ?_⟩
  · rw [Sign.settles_eq_ends, ← hport]
    exact hfirst
  · rw [requestAll_eq, hexchange, Sign.comesTo_verdict]
    cases sign.outcome with
    | error e => rfl
    | ok u => rfl

/-- **The first decisive reply decides.** Requests that can be sent get the numbers after the
conversation's own, around the end of the range if need be, and their result is the outcome of the
first sign that settles them, whatever other signs there are. They succeed exactly if that sign is
an acknowledgement of the last of them. A single request is no different. -/
theorem requestAll_decided (hsome : requests ≠ []) (hcount : requests.length < UInt32.size)
    (hsend : Transport.send ((stamp false requests c.state).1.map Draft.encode) c.endpoint =
      (.ok (), s)) :
    let stamped := (stamp false requests c.state).1.map Draft.seq
    let signs := stream (Transport.arrivals c.state.config.timeout s)
    let result := (requestAll requests c).1
    stamped = numbers c.state.seq requests.length ∧
      (∃ sign, (signs.filter (Sign.settles c.state.port stamped)).head? = some sign ∧
        result = sign.outcome) ∧
      (result = .ok () ↔ ∃ before m after, signs = before ++ .message m :: after ∧
        (∀ sign ∈ before, sign.settles c.state.port stamped = false) ∧
        decisive c.state.port stamped m ∧ ErrorReply.size ≤ m.payload.length ∧ m.code = 0 ∧
        stamped.getLast? = some m.header.seq) ∧
      ∀ d, requests = [d] → (request d c).1 = result := by
  intro stamped signs result
  obtain ⟨sign, hfirst, hresult⟩ := requestAll_outcome hsome hcount hsend
  change signs.find? (Sign.settles c.state.port stamped) = some sign at hfirst
  change result = sign.outcome at hresult
  refine ⟨(stamp_eq false requests c.state).1, ⟨sign, ?_, hresult⟩, ⟨?_, ?_⟩, ?_⟩
  · rw [List.head?_filter, hfirst]
  · intro hok
    rw [hresult] at hok
    obtain ⟨hsettles, before, after, hsplit, hbefore⟩ := List.find?_eq_some_iff_append.mp hfirst
    cases sign with
    | failure e => cases hok
    | message m =>
      obtain ⟨hlong, hzero⟩ := verdict_eq_ok.mp hok
      refine ⟨before, m, after, hsplit, ?_, hsettles, hlong, hzero, last_of_decisive hsettles hok⟩
      intro t ht
      simpa using hbefore t ht
  · rintro ⟨before, m, after, hsplit, hbefore, hdecisive, hlong, hzero, -⟩
    have hfound : signs.find? (Sign.settles c.state.port stamped) = some (.message m) := by
      refine List.find?_eq_some_iff_append.mpr ⟨hdecisive, before, after, hsplit, ?_⟩
      intro t ht
      rw [hbefore t ht]
      rfl
    have hsign : sign = .message m := Option.some.inj (hfirst.symm.trans hfound)
    rw [hresult, hsign]
    exact verdict_eq_ok.mpr ⟨hlong, hzero⟩
  · rintro d rfl
    rfl

/-- An acknowledgement of a request to port 42 with this number and code. -/
def sampleAck (number code : UInt32) : Packet :=
  .fitting ⟨0, MessageType.error, 0, number, 42⟩ (Wire.le32 code ++ Wire.zeros 16) (by
    rw [List.length_append, Wire.length_le32, Wire.length_zeros]
    decide)

/-- A conversation whose next number is the greatest there is. The answers to its requests are a
refusal by someone who is not the kernel, a refusal without its end, and both acknowledgements. -/
def sampleExchange : Connection Script where
  endpoint := { queue := [
    { outcome := .datagram { data := Packet.records [sampleAck 0xffffffff 5], sender := 9 } },
    { outcome := .datagram { data := Packet.records [sampleAck 0xffffffff 5], truncated := true } },
    { outcome := .datagram { data := Packet.records [sampleAck 0xffffffff 0, sampleAck 0 0] } }] }
  state := { protocol := .route, port := 42, config := {}, seq := 0xfffffffe }

theorem requestAll_decided_sample :
    let requests := [Draft.new 16 1, Draft.new 18 1]
    let pieces := (stamp false requests sampleExchange.state).1.map Draft.encode
    let sent : Script := { sampleExchange.endpoint with sent := [pieces.flatten] }
    requests ≠ [] ∧ requests.length < UInt32.size ∧
      Transport.send pieces sampleExchange.endpoint = (.ok (), sent) ∧
      (requestAll requests sampleExchange).1 = .ok () := by
  intro requests pieces sent
  have hsome : requests ≠ [] := List.cons_ne_nil _ _
  have hcount : requests.length < UInt32.size := by decide
  have hsend : Transport.send pieces sampleExchange.endpoint = (.ok (), sent) := rfl
  refine ⟨hsome, hcount, hsend, ?_⟩
  have harrivals : Transport.arrivals sampleExchange.state.config.timeout sent =
      Script.due none sent.queue := Script.arrivals_eq_due rfl none
  have hstream : stream (Script.due none sent.queue) =
      [.message ((sampleAck 0xffffffff 5).message 9), .message ((sampleAck 0xffffffff 0).message 0),
        .message ((sampleAck 0 0).message 0), .failure .endOfFile] := by
    change signs _ ++ (signs _ ++ (signs _ ++ [])) ++ [_] = _
    rw [signs_of_records rfl rfl, signs_of_records (d := { data := Packet.records _ }) rfl rfl]
    rfl
  obtain ⟨-, ⟨sign, hfirst, hresult⟩, -⟩ := requestAll_decided hsome hcount hsend
  rw [harrivals, hstream] at hfirst
  have hsign : sign = .message ((sampleAck 0 0).message 0) := by
    rw [← Option.some.injEq, ← hfirst]
    rfl
  rw [hresult, hsign]
  rfl

end Connection
end Netlink
