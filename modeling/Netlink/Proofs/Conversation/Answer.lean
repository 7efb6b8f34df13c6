import Netlink.Proofs.Conversation.Truncation
import Netlink.Proofs.Endpoint.Failures
import Netlink.Proofs.Message.Cursor

/-! # The first reply

Someone who asks gets the first message that replies to the request, byte for byte as it stands in
its datagram. Only an ERROR that is too short, or that reports a failure, is not handed on but is
the failure. -/

namespace Netlink

/-- The message stands in one of the datagrams, and that datagram has its end. -/
def Message.ArrivesIn (m : Message) (ds : List Datagram) : Prop :=
  ∃ d ∈ ds, d.truncated = false ∧
    ∃ f ∈ (Frame.walk d.data).frames, f.StandsIn d.data ∧ m = f.message d.sender

namespace Transport

variable {σ : Type} [Transport σ] [Transport.Plain σ] {patience : Option Nat} {pieces : List Bytes}
  {s : σ}

/-- A request that cannot be sent fails as an endpoint does. -/
theorem ofEndpoint_of_unsent {e : Error} (h : answers patience pieces s = .error e) :
    e.ofEndpoint = true := by
  unfold answers at h
  split at h
  · cases h
  · rename_i hsend
    cases h
    exact Plain.send hsend

/-- What comes of sending a request ends with a failure of the endpoint. -/
theorem ofEndpoint_of_answers {arrivals : List Datagram × Error}
    (h : answers patience pieces s = .ok arrivals) : arrivals.2.ofEndpoint = true := by
  unfold answers at h
  split at h
  · cases h
    exact Plain.of_fails (fails_arrivals _ _)
  · cases h

end Transport

namespace Exchange

/-- The message replies to the request of this number: it is from the kernel and for this port. -/
def repliesTo (port number : UInt32) (m : Message) : Bool :=
  m.sender = 0 && m.header.pid = port && m.header.seq = number

/-- What a reply is to someone who wants it as it is. -/
def reply (m : Message) : Except Error Bytes :=
  if m.header.isError then (verdict m).map fun _ => m.bytes else .ok m.bytes

/-- The message is an ERROR that cannot be read or that reports a failure. -/
def refuses (m : Message) : Bool :=
  m.header.isError && (m.payload.length < ErrorReply.size || m.code ≠ 0)

theorem reply_of_welcome {m : Message} (h : refuses m = false) : reply m = .ok m.bytes := by
  unfold reply
  cases hkind : m.header.isError with
  | false => rfl
  | true =>
    rw [refuses, hkind] at h
    simp only [Bool.true_and, Bool.or_eq_false_iff, decide_eq_false_iff_not, Nat.not_lt, ne_eq,
      Decidable.not_not] at h
    rw [verdict_eq_ok.mpr h]
    rfl

theorem reply_of_short {m : Message} (herror : m.header.isError = true)
    (hshort : m.payload.length < ErrorReply.size) :
    reply m = .error (.truncated ErrorReply.size m.payload.length) := by
  rw [reply, herror, if_pos rfl, verdict, if_pos hshort]
  rfl

theorem reply_of_refusal {m : Message} (herror : m.header.isError = true)
    (hlong : ErrorReply.size ≤ m.payload.length) (hcode : m.code ≠ 0) :
    reply m = .error m.refusal := by
  rw [reply, herror, if_pos rfl, verdict, if_neg (Nat.not_lt.mpr hlong), if_neg hcode]
  rfl

theorem reply_eq_ok {m : Message} {bytes : Bytes} :
    reply m = .ok bytes ↔ refuses m = false ∧ m.bytes = bytes := by
  constructor
  · intro h
    cases hrefuses : refuses m with
    | false =>
      rw [reply_of_welcome hrefuses] at h
      exact ⟨rfl, Except.ok.inj h⟩
    | true =>
      simp only [refuses, Bool.and_eq_true, Bool.or_eq_true, decide_eq_true_eq] at hrefuses
      obtain ⟨herror, hwhy⟩ := hrefuses
      by_cases hshort : m.payload.length < ErrorReply.size
      · rw [reply_of_short herror hshort] at h
        cases h
      · have hcode : m.code ≠ 0 := hwhy.resolve_left hshort
        rw [reply_of_refusal herror (Nat.le_of_not_lt hshort) hcode] at h
        cases h
  · rintro ⟨hwelcome, rfl⟩
    exact reply_of_welcome hwelcome

theorem failure_of_reply {m : Message} {e : Error} (h : reply m = .error e) :
    (∃ expected actual, e = .truncated expected actual) ∨ e = m.refusal := by
  unfold reply verdict at h
  split at h
  · split at h
    · exact .inl ⟨_, _, (Except.error.inj h).symm⟩
    · split at h
      · cases h
      · exact .inr (Except.error.inj h).symm
  · cases h

/-- The message is the first reply to the request of this number, and nothing has failed before. -/
def FirstReply (port number : UInt32) (signs : List Sign) (m : Message) : Prop :=
  repliesTo port number m = true ∧ ∃ before after, signs = before ++ .message m :: after ∧
    ∀ sign ∈ before, sign.ends (repliesTo port number) = false

theorem FirstReply.find? {port number : UInt32} {signs : List Sign} {m : Message} :
    FirstReply port number signs m ↔
      signs.find? (Sign.ends (repliesTo port number)) = some (.message m) := by
  rw [List.find?_eq_some_iff_append]
  simp only [FirstReply, Sign.ends, Bool.not_eq_true']

/-! ## What is in a stream -/

theorem arrivesIn_of_mem_stream {m : Message} {arrivals : List Datagram × Error}
    (h : Sign.message m ∈ stream arrivals) : m.ArrivesIn arrivals.1 := by
  rw [stream, List.mem_append, List.mem_singleton] at h
  obtain h | h := h
  · obtain ⟨d, hd, hsign⟩ := List.mem_flatMap.mp h
    cases hwhole : d.truncated with
    | true =>
      rw [signs, hwhole] at hsign
      cases hsign
    | false =>
      rw [signs, hwhole] at hsign
      simp only [Bool.false_eq_true, if_false, List.mem_append, List.mem_map] at hsign
      obtain ⟨f, hf, hm⟩ | ⟨e, -, he⟩ := hsign
      · exact ⟨d, hd, hwhole, f, hf, Frame.standsIn_of_mem_walk hf, (Sign.message.inj hm).symm⟩
      · cases he
  · cases h

/-- Whatever fails in a stream is the endpoint, or a datagram that is no run of messages. -/
theorem failure_of_mem_stream {e : Error} {arrivals : List Datagram × Error}
    (h : Sign.failure e ∈ stream arrivals) : e = arrivals.2 ∨ ∃ fault, e = .framing fault := by
  rw [stream, List.mem_append, List.mem_singleton] at h
  obtain h | h := h
  · obtain ⟨d, -, hsign⟩ := List.mem_flatMap.mp h
    right
    rw [signs] at hsign
    split at hsign
    · cases hsign
    · simp only [List.mem_append, List.mem_map, Option.mem_toList] at hsign
      obtain ⟨_, -, hm⟩ | ⟨e', he', hfailure⟩ := hsign
      · cases hm
      · cases hfailure
        exact Frame.Walk.framing_of_complaint he'
  · exact .inl (Sign.failure.inj h)

/-! ## Waiting for a reply -/

/-- What is waited for, when it is the first reply to the request of this number. -/
structure Seeks (x : Exchange) (number : UInt32) : Prop where
  answer : x.wantsAnswer = true
  window : ∀ seq, inWindow x.last x.count seq = decide (seq = number)

theorem Seeks.answers_eq {x : Exchange} {number : UInt32} (hx : x.Seeks number) (m : Message) :
    x.answers m.sender m.header = repliesTo x.port number m := by
  rw [answers, hx.window, repliesTo]

/-- A reply is the end of the wait. -/
theorem Seeks.judge_reply {x : Exchange} {number : UInt32} (hx : x.Seeks number) {sender : UInt32}
    {f : Frame} (hours : x.answers sender f.header = true) (fs : List Frame) (c : Conversation) :
    (x.judge sender (f :: fs) c).2 = some ((reply (f.message sender)).map some) := by
  let m := f.message sender
  have hbytes : f.bytes = m.bytes := rfl
  have hpayload : f.payload = m.payload := rfl
  have hkind : f.header.isError = m.header.isError := rfl
  change _ = some ((reply m).map some)
  rw [judge, hours, hkind, hpayload, hbytes, hx.answer, reply]
  simp only [Bool.not_true, Bool.false_eq_true, if_false, if_true]
  cases m.header.isError with
  | false => rfl
  | true =>
    simp only [if_true, verdict]
    by_cases hshort : m.payload.length < ErrorReply.size
    · rw [ErrorReply.decode_of_short hshort, if_pos hshort]
      rfl
    · rw [ErrorReply.decode_of_long hshort, if_neg hshort]
      simp only [ErrorReply.isAck, ErrorReply.code_ofBytes_take]
      change (if decide (m.code = 0) = true then _ else _ : _ × _).2 = _
      by_cases hzero : m.code = 0
      · simp only [hzero, decide_true, if_true]
        rfl
      · simp only [hzero, decide_false, Bool.false_eq_true, if_false]
        rw [text_ackOf]
        rfl

theorem Seeks.decidedBy {x : Exchange} {number : UInt32} (hx : x.Seeks number) :
    x.DecidedBy (repliesTo x.port number) fun m => (reply m).map some := by
  refine .of_cons fun sender f fs c => ?_
  rw [← hx.answers_eq]
  change ∃ c', _ = if x.answers sender f.header = true then _ else _
  cases hours : x.answers sender f.header with
  | true => exact ⟨c, hx.judge_reply hours fs c⟩
  | false =>
    rw [judge, hours]
    exact ⟨_, rfl⟩

theorem seeks_posed (d : Draft) (quiet : Bool) (handler : AckHandler) (c : Conversation) :
    (posed [d] true quiet handler c).Seeks c.nextSeq := by
  have hsingle : [d].length < UInt32.size := by simp [UInt32.size]
  refine ⟨rfl, fun seq => Bool.eq_iff_iff.mpr ((inWindow_posed hsingle seq).trans ?_)⟩
  change seq ∈ [c.nextSeq] ↔ _
  rw [List.mem_singleton, decide_eq_true_iff]

end Exchange

namespace Connection
open Exchange

variable {σ : Type} [Transport σ]

/-- The result of asking is the reply that comes first, or the failure that comes before. -/
theorem ask_outcome (d : Draft) (c : Connection σ) :
    let asked := d.setSeq c.state.nextSeq
    let answers := Transport.answers c.state.config.timeout [asked.encode] c.endpoint
    (∀ e, answers = .error e → (ask d c).1 = .error e) ∧
      ∀ arrivals, answers = .ok arrivals →
        ∃ sign, (stream arrivals).find? (Sign.ends (repliesTo c.state.port asked.seq)) = some sign ∧
          (ask d c).1 = sign.comesTo reply := by
  intro asked answers
  have hsome : [d] ≠ [] := List.cons_ne_nil _ _
  have hpieces : (stamp true [d] c.state).1.map Draft.encode = [asked.encode] := rfl
  have hposed {sent : Except Error Unit × σ}
      (h : Transport.send [asked.encode] c.endpoint = sent) :
      Transport.send ((stamp true [d] c.state).1.map Draft.encode) c.endpoint = sent := by
    rw [hpieces, h]
  rcases hsend : Transport.send [asked.encode] c.endpoint with ⟨e' | _, s⟩
  · have hanswers : answers = .error e' := by
      dsimp only [answers]
      rw [Transport.answers, hsend]
    have hask : (ask d c).1 = .error e' := by
      rw [ask_eq, exchange_of_unsent c.state.config.quiet c.state.handler hsome (hposed hsend)]
      rfl
    refine ⟨fun e he => ?_, fun arrivals harrivals => ?_⟩
    · cases hanswers.symm.trans he
      exact hask
    · cases hanswers.symm.trans harrivals
  · have hanswers : answers = .ok (Transport.arrivals c.state.config.timeout s) := by
      dsimp only [answers]
      rw [Transport.answers, hsend]
    refine ⟨fun e he => ?_, fun arrivals harrivals => ?_⟩
    · cases hanswers.symm.trans he
    · cases hanswers.symm.trans harrivals
      obtain ⟨sign, hfirst, hexchange⟩ := exchange_outcome hsome
        (seeks_posed d c.state.config.quiet c.state.handler c.state).decidedBy (hposed hsend)
      refine ⟨sign, hfirst, ?_⟩
      rw [ask_eq, hexchange]
      cases sign with
      | failure e => rfl
      | message m =>
        change ((reply m).map some).bind _ = reply m
        cases reply m <;> rfl

/-- Asking fails as the endpoint does, because messages cannot be told apart or read, or because the
kernel refuses. -/
theorem failure_of_ask [Transport.Plain σ] {d : Draft} {c : Connection σ} {e : Error}
    (h : (ask d c).1 = .error e) :
    e.ofEndpoint = true ∨ (∃ fault, e = .framing fault) ∨
      (∃ expected actual, e = .truncated expected actual) ∨
      ∃ m : Message, e = m.refusal := by
  obtain ⟨hunsent, hsent⟩ := ask_outcome d c
  cases hanswers : Transport.answers c.state.config.timeout
      [(d.setSeq c.state.nextSeq).encode] c.endpoint with
  | error e' =>
    cases (hunsent e' hanswers).symm.trans h
    exact .inl (Transport.ofEndpoint_of_unsent hanswers)
  | ok arrivals =>
    obtain ⟨sign, hsign, hask⟩ := hsent arrivals hanswers
    have hcomes : sign.comesTo reply = .error e := hask.symm.trans h
    cases sign with
    | failure e' =>
      cases hcomes
      obtain hlast | hframing := failure_of_mem_stream (List.mem_of_find?_eq_some hsign)
      · left
        rw [hlast]
        exact Transport.ofEndpoint_of_answers hanswers
      · exact .inr (.inl hframing)
    | message m =>
      obtain htruncated | hrefusal := failure_of_reply hcomes
      · exact .inr (.inr (.inl htruncated))
      · exact .inr (.inr (.inr ⟨m, hrefusal⟩))

/-- **The first reply, as it was received.** Asking comes to an answer exactly if the first message
that replies to the request, with nothing failed before it, is not an ERROR that is too short or
that reports a failure; and the answer is that message. It stands in a datagram that has its end,
from its header on for as long as that declares, comes from the kernel, is for this port and has the
number of the request. If it is such an ERROR, that is the failure. That there was no reply is never
the failure. -/
theorem ask_first_reply (d : Draft) (c : Connection σ) :
    let asked := d.setSeq c.state.nextSeq
    let answers := Transport.answers c.state.config.timeout [asked.encode] c.endpoint
    let result := (ask d c).1
    (∀ bytes, result = .ok bytes ↔ ∃ arrivals m, answers = .ok arrivals ∧
      FirstReply c.state.port asked.seq (stream arrivals) m ∧ refuses m = false ∧
      m.bytes = bytes) ∧
    (∀ arrivals m, answers = .ok arrivals →
      FirstReply c.state.port asked.seq (stream arrivals) m →
      m.ArrivesIn arrivals.1 ∧ m.sender = 0 ∧ m.header.pid = c.state.port ∧
        m.header.seq = asked.seq ∧
        (m.header.isError = true → m.payload.length < ErrorReply.size →
          result = .error (.truncated ErrorReply.size m.payload.length)) ∧
        (m.header.isError = true → ErrorReply.size ≤ m.payload.length → m.code ≠ 0 →
          result = .error m.refusal)) ∧
    (Transport.Plain σ → result ≠ .error (.invalidMessage .noReply)) := by
  intro asked answers result
  obtain ⟨hunsent, hsent⟩ := ask_outcome d c
  change ∀ e, answers = .error e → result = .error e at hunsent
  have hfirst : ∀ arrivals m, answers = .ok arrivals →
      FirstReply c.state.port asked.seq (stream arrivals) m → result = reply m := by
    intro arrivals m harrivals hm
    obtain ⟨sign, hsign, hask⟩ := hsent arrivals harrivals
    cases hsign.symm.trans (FirstReply.find?.mp hm)
    exact hask
  refine ⟨fun bytes => ⟨fun hok => ?_, ?_⟩, ?_, ?_⟩
  · cases hanswers : answers with
    | error e =>
      rw [hunsent e hanswers] at hok
      cases hok
    | ok arrivals =>
      obtain ⟨sign, hsign, hask⟩ := hsent arrivals hanswers
      have hcomes : sign.comesTo reply = .ok bytes := hask.symm.trans hok
      cases sign with
      | failure e => cases hcomes
      | message m =>
        exact ⟨arrivals, m, rfl, FirstReply.find?.mpr hsign, reply_eq_ok.mp hcomes⟩
  · rintro ⟨arrivals, m, harrivals, hm, hwelcome, rfl⟩
    rw [hfirst arrivals m harrivals hm, reply_of_welcome hwelcome]
  · intro arrivals m harrivals hm
    have hresult := hfirst arrivals m harrivals hm
    obtain ⟨hreplies, before, after, hstream, -⟩ := hm
    simp only [repliesTo, Bool.and_eq_true, decide_eq_true_eq] at hreplies
    obtain ⟨⟨hsender, hport⟩, hnumber⟩ := hreplies
    have harrives : m.ArrivesIn arrivals.1 := by
      apply arrivesIn_of_mem_stream
      rw [hstream]
      exact List.mem_append_right _ (List.mem_cons_self ..)
    refine ⟨harrives, hsender, hport, hnumber, fun herror hshort => ?_,
      fun herror hlong hcode => ?_⟩
    · rw [hresult, reply_of_short herror hshort]
    · rw [hresult, reply_of_refusal herror hlong hcode]
  · intro hplain hnone
    obtain hplain | ⟨_, h⟩ | ⟨_, _, h⟩ | ⟨_, h⟩ := failure_of_ask hnone
    · cases hplain
    · cases h
    · cases h
    · cases h

open Dump (sampleArrivals sampleObject)

/-- Three objects, of which the second is the first with the number of a request behind number
seven. -/
def sampleReplies : List Packet :=
  [sampleObject 7 [21, 22, 23, 24, 25] (by decide), sampleObject 8 [26, 27, 28] (by decide),
    sampleObject 8 [29] (by decide)]

/-- The reply is nineteen bytes long and stands at the twenty-fifth byte. A refusal in its place is
the failure. -/
theorem ask_first_reply_sample :
    let asked (ps : List Packet) :=
      (ask (Draft.new 18 1) (sampleArrivals [{ data := Packet.records ps }] none)).1
    asked sampleReplies = .ok (((Packet.records sampleReplies).drop 24).take 19) ∧
      asked [sampleAck 7 5, sampleAck 8 0xffffffed] = .error (.kernel 19 none) := by
  intro asked
  have hstream : ∀ ps, stream ([{ data := Packet.records ps }], .endOfFile) =
      (ps.map (Packet.message 0)).map .message ++ [.failure .endOfFile] := by
    intro ps
    change signs _ ++ [] ++ [_] = _
    rw [signs_of_records rfl rfl, List.append_nil]
  constructor
  · let c := sampleArrivals [{ data := Packet.records sampleReplies }] none
    obtain ⟨hanswered, -, -⟩ := ask_first_reply (Draft.new 18 1) c
    refine (hanswered _).mpr ⟨_, (sampleObject 8 [26, 27, 28] (by decide)).message 0,
      answers_sample _ _ none, ⟨rfl, ?_⟩, rfl, rfl⟩
    rw [hstream]
    refine ⟨[.message ((sampleObject 7 [21, 22, 23, 24, 25] (by decide)).message 0)], _, rfl, ?_⟩
    intro sign hsign
    rw [List.mem_singleton] at hsign
    rw [hsign]
    rfl
  · let c := sampleArrivals [{ data := Packet.records [sampleAck 7 5, sampleAck 8 0xffffffed] }] none
    obtain ⟨-, hfirst, -⟩ := ask_first_reply (Draft.new 18 1) c
    obtain ⟨-, -, -, -, -, hrefusal⟩ := hfirst _ ((sampleAck 8 0xffffffed).message 0)
      (answers_sample _ _ none) ⟨rfl, by
        rw [hstream]
        refine ⟨[.message ((sampleAck 7 5).message 0)], _, rfl, ?_⟩
        intro sign hsign
        rw [List.mem_singleton] at hsign
        rw [hsign]
        rfl⟩
    exact hrefusal rfl (by decide) (by decide)

end Connection
end Netlink
