import Netlink.Proofs.Conversation.Decision
import Netlink.Proofs.Conversation.Interruption
import Netlink.Proofs.Endpoint.Failures

/-! # What tells a code

Some reports tell of a code that the kernel sent. Until a wait for answers closes it tells none, and
until a dump closes nobody but its consumers does. An exchange closes with a refusal, or with
something that has nothing to do with a code; a dump closes with an ERROR or with DONE, with a
consumer that refuses a message, or with a datagram that cannot be made anything of. -/

namespace Netlink

/-- The report tells of a code that the kernel sent. -/
def Event.tellsCode : Event → Bool
  | .requestRefused .. | .dumpRefused _ | .objectTooLarge | .kernelError .. => true
  | _ => false

/-- The kernel's text is told as a failure exactly if that counts as a report. -/
theorem Ack.report_tellsCode (a : Ack) :
    (∃ e ∈ a.report, e.tellsCode = true) ↔ AckHandler.logging.reports a = true := by
  have hreports : AckHandler.logging.reports a = (a.hasText && a.isError) := rfl
  rw [hreports, report, hasText]
  cases a.text with
  | none => simp
  | some text =>
    rw [Option.filter_some, Option.any_some]
    cases text.isEmpty with
    | true => simp
    | false =>
      cases a.isError with
      | true => exact ⟨fun _ => rfl, fun _ => ⟨.kernelError text a.code, List.mem_cons_self, rfl⟩⟩
      | false =>
        refine iff_of_false ?_ Bool.false_ne_true
        rintro ⟨e, he, htells⟩
        rw [List.mem_singleton.mp he] at htells
        cases htells

/-! ## Silence -/

namespace Conversation

/-- Between two points of a conversation no code was told. -/
abbrev Silent (c c' : Conversation) : Prop := Reported (fun e => e.tellsCode = false) c c'

/-- Between two points of a conversation a code was told. -/
def Told (c c' : Conversation) : Prop :=
  ∃ events, c'.log = c.log ++ events ∧ ∃ e ∈ events, e.tellsCode = true

variable {c c₁ c' : Conversation}

theorem told_of_log {events : List Event} (hlog : c'.log = c.log ++ events) :
    Told c c' ↔ ∃ e ∈ events, e.tellsCode = true := by
  constructor
  · rintro ⟨events', hlog', htold⟩
    rw [hlog] at hlog'
    rwa [List.append_cancel_left hlog']
  · exact fun htold => ⟨events, hlog, htold⟩

theorem Reported.not_told (h : Silent c c') : ¬ Told c c' := by
  obtain ⟨events, hlog, hall⟩ := h
  rw [told_of_log hlog]
  rintro ⟨e, he, htells⟩
  rw [hall e he] at htells
  cases htells

/-- What was told was told before a point between or after it. -/
theorem told_trans {P Q : Event → Prop} (h : Reported P c c₁) (h' : Reported Q c₁ c') :
    Told c c' ↔ Told c c₁ ∨ Told c₁ c' := by
  obtain ⟨events, hlog, -⟩ := h
  obtain ⟨events', hlog', -⟩ := h'
  have hwhole : c'.log = c.log ++ (events ++ events') := by rw [hlog', hlog, List.append_assoc]
  simp only [told_of_log hlog, told_of_log hlog', told_of_log hwhole, List.mem_append, or_and_right,
    exists_or]

end Conversation

open Conversation (Reported Silent Told)

theorem Ack.log_ofDone_silent (h : Header) (payload : Bytes) :
    ∀ e ∈ (ofDone h payload).log, e.tellsCode = false := by
  intro e he
  obtain ⟨deficit, declared, rfl⟩ := log_ofDone he
  rfl

theorem Ack.log_ofError_silent (h : Header) (payload : Bytes) :
    ∀ e ∈ (ofError h payload).log, e.tellsCode = false := by
  intro e he
  obtain ⟨deficit, declared, rfl⟩ | ⟨offset, rfl⟩ := log_ofError he
  · rfl
  · rfl

/-- The kernel's words about a request that did not fail tell no code. -/
theorem Ack.report_silent {a : Ack} (h : a.code = 0) : ∀ e ∈ a.report, e.tellsCode = false := by
  intro e he
  have hreported := a.report_tellsCode
  have hno : AckHandler.logging.reports a = false := by
    simp [AckHandler.reports, isError, h]
  rw [hno] at hreported
  have hnone := fun htells => Bool.false_ne_true (hreported.mp ⟨e, he, htells⟩)
  exact Bool.eq_false_iff.mpr hnone

theorem AckHandler.log_silent (handler : AckHandler) {a : Ack} (h : a.code = 0) :
    ∀ e ∈ handler.log a, e.tellsCode = false := by
  cases handler with
  | logging => exact a.report_silent h
  | recording => exact List.forall_mem_nil _

/-- If all that a reader reports while it wants more is of a kind, then so is all that is reported
while it takes datagrams. -/
theorem Reader.Takes.reported {β α : Type} {P : Event → Prop} {r : Reader β α} {ds : List Datagram}
    {c c' : Conversation} {memory memory' : β}
    (hmore : ∀ {d c memory c' memory'}, r.step d c memory = .more c' memory' → Reported P c c')
    (hreceived : ∀ bytes sender truncated, P (.received bytes sender truncated))
    (h : r.Takes ds c memory c' memory') : Reported P c c' := by
  induction h with
  | nil => exact .refl _ _
  | cons step _ ih =>
    exact (Reported.trans (.single (hreceived _ _ _)) (hmore step)).trans ih

/-- What a reader makes of a datagram is the one if it wants more, and the other if it has finished. -/
def Verdict.Leads {β α : Type} (more : Conversation → Prop)
    (finished : Conversation → Except Error α → Prop) : Verdict β α → Prop
  | .more c _ => more c
  | .finished c _ result => finished c result

namespace Verdict.Leads

variable {β α : Type} {more : Conversation → Prop} {finished : Conversation → Except Error α → Prop}
  {v : Verdict β α} {c : Conversation} {memory : β} {result : Except Error α}

theorem of_more (h : v.Leads more finished) (hv : v = .more c memory) : more c := by
  rw [hv] at h
  exact h

theorem of_finished (h : v.Leads more finished) (hv : v = .finished c memory result) :
    finished c result := by
  rw [hv] at h
  exact h

end Verdict.Leads

/-! ## Exchanges -/

namespace Exchange

theorem silent_ackOf (h : Header) (payload : Bytes) (reply : ErrorReply) :
    ∀ e ∈ (ackOf h payload reply).log, e.tellsCode = false := by
  intro e he
  rw [ackOf, Logged.log_bind, Logged.log_pure, List.append_nil] at he
  exact Ack.log_ofError_silent h payload e he

theorem code_ackOf {h : Header} {payload : Bytes} {reply : ErrorReply}
    (hreply : ErrorReply.decode payload = .ok reply) :
    (ackOf h payload reply).value.code = reply.code := by
  rw [ackOf, Logged.value_bind, Logged.value_pure]
  cases hack : (Ack.ofError h payload).value with
  | none => rfl
  | some a => exact Ack.code_ofError hreply hack

/-- Why a wait fails that no refusal has closed: there is nothing to wait for, a refusal is too short
to be one, or a datagram cannot be made anything of. -/
inductive Fault : Error → Prop
  | nothing : Fault (.invalidMessage .emptyBatch)
  | short {size : Nat} (short : size < ErrorReply.size) : Fault (.truncated ErrorReply.size size)
  | framing (fault : FramingFault) : Fault (.framing fault)

theorem Fault.errno? {e : Error} (h : Fault e) : e.errno? = none := by
  cases h <;> rfl

theorem Fault.of_decode {payload : Bytes} {e : Error} (h : ErrorReply.decode payload = .error e) :
    Fault e := by
  unfold ErrorReply.decode at h
  split at h
  · cases h
  · rename_i hnone
    cases h
    exact .short (Wire.split?_eq_none_iff.mp hnone)

/-- How a wait that has come to the conversation `c` closes. -/
inductive Closes (x : Exchange) (c : Conversation) :
    Conversation → Except Error (Option Bytes) → Prop
  /-- It succeeds, or it fails and no code has to do with it. -/
  | uncoded {c' : Conversation} {result : Except Error (Option Bytes)} (silent : Silent c c')
      (cause : ∀ e, result = .error e → Fault e) : Closes x c c' result
  /-- The kernel refuses a request. -/
  | refused {c₁ : Conversation} (h : Header) {a : Ack} (silent : Silent c c₁)
      (failed : a.code ≠ 0) :
      Closes x c (x.reportRefusal h a c₁) (.error (Error.ofCode a.code a.text))

variable {x : Exchange} {c c₁ c' : Conversation} {result : Except Error (Option Bytes)}

theorem Closes.after (h : x.Closes c₁ c' result) (hsilent : Silent c c₁) :
    x.Closes c c' result := by
  cases h with
  | uncoded silent cause => exact .uncoded (hsilent.trans silent) cause
  | refused header silent failed => exact .refused header (hsilent.trans silent) failed

/-- Messages are judged without a code being told, up to the one that closes the wait. -/
theorem judge_closes (x : Exchange) (sender : UInt32) (fs : List Frame) (c : Conversation) :
    (x.judge sender fs c).2.elim (Silent c (x.judge sender fs c).1)
      (x.Closes c (x.judge sender fs c).1) := by
  induction fs generalizing c with
  | nil => exact Reported.refl _ c
  | cons f fs ih =>
    -- what is judged behind this message, if nothing but silence was before
    have hlater {c₁ : Conversation} (hsilent : Silent c c₁) :
        (x.judge sender fs c₁).2.elim (Silent c (x.judge sender fs c₁).1)
          (x.Closes c (x.judge sender fs c₁).1) := by
      have hjudged := ih c₁
      generalize x.judge sender fs c₁ = judged at hjudged ⊢
      obtain ⟨c', decision⟩ := judged
      cases decision with
      | none => exact hsilent.trans hjudged
      | some result => exact Closes.after hjudged hsilent
    have hanswered {c₁ : Conversation} {answer : Option Bytes} (hsilent : Silent c c₁) :
        x.Closes c c₁ (.ok answer) :=
      .uncoded hsilent fun e he => by cases he
    unfold judge
    split
    · exact hlater (.single rfl)
    · split
      · split
        · rename_i e hshort
          have hfault := Fault.of_decode hshort
          exact Closes.uncoded (.single rfl) fun e' he' => Except.error.inj he' ▸ hfault
        · rename_i reply hreply
          have hcode := code_ackOf (h := f.header) hreply
          have hread : Silent c (c.report (ackOf f.header f.payload reply).log) :=
            .report (silent_ackOf _ _ _)
          dsimp only
          split
          · -- an acknowledgement may come with a text, but not with a code
            rename_i hack
            have hzero : (ackOf f.header f.payload reply).value.code = 0 :=
              hcode.trans (by simpa [ErrorReply.isAck] using hack)
            have hacknowledged : Silent c ((c.report _).acknowledge x.handler _) :=
              hread.trans (.acknowledge (x.handler.log_silent hzero))
            split
            · exact hanswered hacknowledged
            · split
              · exact hanswered hacknowledged
              · exact hlater hacknowledged
          · rename_i hrefused
            rw [← hcode]
            exact Closes.refused f.header hread (by simpa [ErrorReply.isAck, hcode] using hrefused)
      · split
        · exact hanswered (.refl _ _)
        · exact hlater (.single rfl)

theorem step_closes (x : Exchange) (d : Datagram) (c : Conversation) (memory : Unit) :
    (x.step d c memory).Leads (Silent c) (x.Closes c) := by
  have hjudged := x.judge_closes d.sender (Frame.walk d.data).frames c
  unfold step
  split
  · exact Reported.single (c := c) rfl
  · dsimp only
    generalize x.judge d.sender (Frame.walk d.data).frames c = judged at hjudged ⊢
    obtain ⟨c₁, decision⟩ := judged
    cases decision with
    | some result => exact hjudged
    | none =>
      dsimp only
      split
      · rename_i e hcomplaint
        obtain ⟨fault, rfl⟩ := Frame.Walk.framing_of_complaint hcomplaint
        exact Closes.uncoded hjudged fun e' he' => Except.error.inj he' ▸ .framing fault
      · exact hjudged

end Exchange

theorem Connection.send_silent {σ : Type} [Transport σ] (pieces : List Bytes) (c : Connection σ) :
    Silent c.state (send pieces c).2.state :=
  .single rfl

/-- An exchange fails as its endpoint does without telling a code, or it closes. -/
theorem Connection.exchange_closes {σ : Type} [Transport σ] (requests : List Draft)
    (wantsAnswer quiet : Bool) (handler : AckHandler) (c : Connection σ) :
    let run := exchange requests wantsAnswer quiet handler c
    (∃ e, run.1 = .error e ∧ Transport.Fails σ e ∧ Silent c.state run.2.state) ∨
      (Exchange.posed requests wantsAnswer quiet handler c.state).Closes c.state run.2.state
        run.1 := by
  intro run
  by_cases hsome : requests = []
  · subst hsome
    exact .inr (.uncoded (.refl _ _) fun e he => Except.error.inj he ▸ .nothing)
  · let x := Exchange.posed requests wantsAnswer quiet handler c.state
    let pieces := (Exchange.stamp wantsAnswer requests c.state).1.map Draft.encode
    have hstamped : Silent c.state (Exchange.stamp wantsAnswer requests c.state).2 := by
      rw [(Exchange.stamp_eq wantsAnswer requests c.state).2]
      exact ⟨[], (List.append_nil _).symm, List.forall_mem_nil _⟩
    have hsent := hstamped.trans
      (send_silent pieces ⟨c.endpoint, (Exchange.stamp wantsAnswer requests c.state).2⟩)
    have hrun : run = _ := exchange_run hsome c
    have houtcome : (send pieces ⟨c.endpoint, (Exchange.stamp wantsAnswer requests c.state).2⟩).1 =
        (Transport.send pieces c.endpoint).1 := rfl
    rw [hrun]
    generalize send pieces ⟨c.endpoint, (Exchange.stamp wantsAnswer requests c.state).2⟩ = sent
      at hsent houtcome ⊢
    obtain ⟨e | _, s⟩ := sent
    · exact .inl ⟨e, rfl, .inl ⟨pieces, c.endpoint, _, Prod.ext houtcome.symm rfl⟩, hsent⟩
    · have hmore : ∀ {d c memory c' memory'}, x.reader.step d c memory = .more c' memory' →
          Silent c c' :=
        fun {d c memory c' memory'} h => (x.step_closes d c memory).of_more h
      obtain ⟨htakes, hfailed⟩ | ⟨before, last, c₁, memory₁, -, htakes, hlast⟩ :=
        drain_cases rfl (Exchange.steady_reader x) s ()
      · have hwaited : Silent s.state _ := htakes.reported hmore fun _ _ _ => rfl
        exact .inl ⟨_, hfailed, Transport.fails_arrivals _ _, hsent.trans hwaited⟩
      · have hwaited : Silent s.state c₁ := htakes.reported hmore fun _ _ _ => rfl
        have hheard : Silent c₁ (c₁.heard last) := .single rfl
        have hclosed := (x.step_closes last (c₁.heard last) memory₁).of_finished hlast
        exact .inr (hclosed.after ((hsent.trans hwaited).trans hheard))

/-! ## Dumps -/

namespace Dump

variable {β : Type} {k : Consumer β} {ks ks' : List (Consumer β)} {sender : UInt32} {d : Datagram}
  {fs : List Frame} {p q : Progress β} {c c₁ c' : Conversation} {ms ms' : List Message}
  {memory memory' : β} {result : Except Error Unit}

/-- A datagram that cannot be recorded does not fit the sink. -/
theorem eq_of_record_error {data : Bytes} {e : Error} (h : c.record data = (.error e, c')) :
    e = .io .sinkFull := by
  have hfull : ∀ room : Nat,
      (if data.length ≤ room then .ok () else .error (.io .sinkFull) : Except Error Unit) =
        .error e → e = .io .sinkFull := by
    intro room hwritten
    split at hwritten
    · cases hwritten
    · exact (Except.error.inj hwritten).symm
  unfold Conversation.record at h
  split at h
  · cases h
  · exact hfull _ (congrArg Prod.fst h)

/-- What walks over a datagram come to is the one if the dump goes on, and the other if it is over. -/
def Walked.Leads (going : Conversation → Prop) (closed : Conversation → Except Error Unit → Prop) :
    Walked β → Prop
  | .through p | .atDone p => going p.state
  | .over c _ result => closed c result

namespace Walked.Leads

variable {going going' : Conversation → Prop}
  {closed closed' : Conversation → Except Error Unit → Prop} {walked : Walked β}

theorem of_progress? (h : walked.Leads going closed) (hp : walked.progress? = some p) :
    going p.state := by
  rcases walked.eq_of_progress? hp with rfl | rfl
  · exact h
  · exact h

theorem of_over (h : walked.Leads going closed) (hover : walked = .over c memory result) :
    closed c result := by
  rw [hover] at h
  exact h

theorem imp (h : walked.Leads going closed) (hgoing : ∀ c, going c → going' c)
    (hclosed : ∀ c result, closed c result → closed' c result) : walked.Leads going' closed' := by
  cases walked with
  | through p => exact hgoing _ h
  | atDone p => exact hgoing _ h
  | «over» c memory result => exact hclosed _ _ h

end Walked.Leads

/-- Some consumer says this when it is handed some message. -/
def Said (ks : List (Consumer β)) (e : Event) : Prop :=
  ∃ k ∈ ks, ∃ m memory, e ∈ (k.accept m memory).log

/-- Between two points of a conversation nobody but consumers told a code. -/
abbrev SilentBut (ks : List (Consumer β)) (c c' : Conversation) : Prop :=
  Reported (fun e => e.tellsCode = true → Said ks e) c c'

theorem SilentBut.of_silent (h : Silent c c') : SilentBut ks c c' := by
  refine h.mono fun e hsilent htells => ?_
  rw [hsilent] at htells
  cases htells

theorem SilentBut.of_accept (hk : k ∈ ks) (m : Message) (memory : β) (c : Conversation) :
    SilentBut ks c (c.report (k.accept m memory).log) :=
  .report fun _ he _ => ⟨k, hk, m, memory, he⟩

/-- What DONE leads to in the log: its attributes are read and handed to the handler, and the
failure is told unless that has been done or is not wanted. -/
theorem onDone_state {h : Header} {payload front rest : Bytes}
    (hsplit : Wire.split? 4 payload = some (front, rest)) :
    let code := (Wire.word32 front).toInt32
    let said := Ack.ofDone h payload
    let read := c.report said.log
    let heard := said.value.elim read (read.acknowledge c.handler)
    (onDone c h payload).2 =
      if 0 ≤ code ∨ said.value.any c.handler.reports = true ∨ c.config.quiet = true then heard
      else heard.report (doneReport (Error.number code)) := by
  intro code said read heard
  -- what becomes of a failure, once it is settled whether the handler has told it
  have hfailed (reported : Bool) (c₁ : Conversation) (hkept : c₁.config = c.config)
      (hnegative : ¬ 0 ≤ code) :
      (if reported || c₁.config.quiet then c₁ else c₁.report (doneReport (Error.number code))) =
        if 0 ≤ code ∨ reported = true ∨ c.config.quiet = true then c₁
        else c₁.report (doneReport (Error.number code)) := by
    rw [hkept]
    simp only [hnegative, Bool.or_eq_true, false_or]
  unfold onDone
  rw [hsplit]
  dsimp only [heard, said]
  by_cases hcode : 0 ≤ code
  · rw [if_pos hcode, if_pos (.inl hcode)]
    cases (Ack.ofDone h payload).value <;> rfl
  · rw [if_neg hcode]
    cases (Ack.ofDone h payload).value with
    | none => exact hfailed false read rfl hcode
    | some a => exact hfailed (c.handler.reports a) (read.acknowledge c.handler a) rfl hcode

/-- How a dump closes that has come to the conversation `c` and has these messages before it. -/
inductive Closes (ks : List (Consumer β)) (c : Conversation) (ms : List Message) :
    Conversation → Except Error Unit → Prop
  /-- A datagram does not fit the sink or is no run of messages. -/
  | faulty {c' : Conversation} {e : Error} (silent : SilentBut ks c c')
      (fault : e = .io .sinkFull ∨ ∃ fault, e = .framing fault) : Closes ks c ms c' (.error e)
  /-- A consumer refuses a message. -/
  | declined {k : Consumer β} {m : Message} {memory : β} {c' : Conversation} {e : Error}
      (member : k ∈ ks) (silent : SilentBut ks c c')
      (declines : (k.accept m memory).value.1 = .error e) : Closes ks c ms c' (.error e)
  /-- The first message that ends the dump is an ERROR. -/
  | error {k : Consumer β} {m : Message} {c₁ : Conversation} (member : k ∈ ks)
      (silent : SilentBut ks c c₁) (settled : c₁.settled = c.settled)
      (ending : ending? c.port c.dumpSeq ms = some m) (kind : m.header.isDone = false) :
      Closes ks c ms (onError c₁ (m.clearing k.clears).header m.payload).2
        (onError c₁ (m.clearing k.clears).header m.payload).1
  /-- The first message that ends the dump is DONE. -/
  | done {m : Message} {c₁ c' : Conversation} (attended : ks ≠ []) (silent : SilentBut ks c c₁)
      (settled : c₁.settled = c.settled) (ending : ending? c.port c.dumpSeq ms = some m)
      (kind : m.header.isDone = true)
      (state : c' = (onDone c₁ m.header m.payload).2 ∨
        c' = (onDone c₁ m.header m.payload).2.report [.dumpInterrupted]) :
      Closes ks c ms c' (onDone c₁ m.header m.payload).1

/-- A dump closes in the same way seen from before. -/
theorem Closes.after (h : Closes ks c₁ ms c' result) (hsilent : SilentBut ks c c₁)
    (hsettled : c₁.settled = c.settled)
    (hending : ks ≠ [] → ∀ m, ending? c.port c.dumpSeq ms = some m →
      ending? c.port c.dumpSeq ms' = some m) : Closes ks c ms' c' result := by
  obtain ⟨-, hport, -, -, hnumber, -⟩ := Conversation.eq_of_settled hsettled
  cases h with
  | faulty silent fault => exact .faulty (hsilent.trans silent) fault
  | declined member silent declines => exact .declined member (hsilent.trans silent) declines
  | error member silent settled ending kind =>
    rw [hport, hnumber] at ending
    exact .error member (hsilent.trans silent) (settled.trans hsettled)
      (hending (List.ne_nil_of_mem member) _ ending) kind
  | done attended silent settled ending kind state =>
    rw [hport, hnumber] at ending
    exact .done attended (hsilent.trans silent) (settled.trans hsettled)
      (hending attended _ ending) kind state

/-- The messages are walked without anyone but consumers telling a code, up to the one that closes
the dump. -/
theorem deliver_closes (hk : k ∈ ks) (sender : UInt32) (fs : List Frame) (p : Progress β) :
    (deliver k sender fs p).Leads (SilentBut ks p.state)
      (Closes ks p.state (fs.map (Frame.message sender))) := by
  induction fs generalizing p with
  | nil => exact Reported.refl _ p.state
  | cons f fs ih =>
    let m := f.message sender
    -- what closes the dump behind this message, if this one does not
    have hlater {p₁ : Progress β} (hpassed : SilentBut ks p.state p₁.state)
        (hsettled : p₁.state.settled = p.state.settled)
        (hfront : (related p.state.port p.state.dumpSeq m && ends m) = false) :
        (deliver k sender fs p₁).Leads (SilentBut ks p.state)
          (Closes ks p.state (m :: fs.map (Frame.message sender))) := by
      refine (ih p₁).imp (fun c' h => hpassed.trans h) fun c' result h => ?_
      refine h.after hpassed hsettled fun _ m' hm' => ?_
      rw [ending?_cons, hfront]
      exact hm'
    rw [List.map_cons]
    cases hours : related p.state.port p.state.dumpSeq m with
    | false =>
      rw [deliver_foreign hours]
      exact hlater (.of_silent (.single rfl)) rfl (by rw [hours]; rfl)
    | true =>
      cases hdone : f.header.isDone with
      | true =>
        rw [deliver_done hours hdone]
        exact Reported.refl _ p.state
      | false =>
        cases herror : f.header.isError with
        | true =>
          rw [deliver_error hours hdone herror]
          have hends : ends m = true := by simp [ends, m, Frame.message, herror]
          have hending : ending? p.state.port p.state.dumpSeq
              (m :: fs.map (Frame.message sender)) = some m := by
            rw [ending?_cons, hours, hends]
            rfl
          exact Closes.error hk (.refl _ _) rfl hending hdone
        | false =>
          have hends : ends m = false := by simp [ends, m, Frame.message, hdone, herror]
          have hsaid := SilentBut.of_accept hk (m.clearing k.clears) p.memory p.state
          rw [deliver_object hours hdone herror]
          obtain ⟨⟨⟨result₁, memory₁⟩, log⟩, haccept⟩ :
            ∃ x, k.accept (m.clearing k.clears) p.memory = x := ⟨_, rfl⟩
          rw [haccept] at hsaid ⊢
          cases result₁ with
          | error e => exact Closes.declined hk hsaid (congrArg (·.value.1) haccept)
          | ok u => exact hlater hsaid rfl (by rw [hends, Bool.and_false])

/-- The walks over a datagram close the dump, or nobody but consumers has told a code when it goes
on after them. -/
theorem deliverAll_closes (hsub : ∀ k ∈ ks', k ∈ ks) (d : Datagram) (p : Progress β) :
    (deliverAll d (Frame.walk d.data) ks' p).Leads (SilentBut ks p.state)
      (Closes ks p.state d.messages) := by
  induction ks' generalizing p with
  | nil => exact Reported.refl _ p.state
  | cons k rest ih =>
    have hk : k ∈ ks := hsub k List.mem_cons_self
    have hfirst := deliver_closes hk d.sender (Frame.walk d.data).frames p
    obtain ⟨c₁, memory₁, result₁, hwalk, hall⟩ | ⟨p₁, hwalk, hall⟩ := deliverAll_cons k rest d p
    · rw [hall]
      exact hfirst.of_over hwalk
    · have hwalked : SilentBut ks p.state p₁.state := hfirst.of_progress? hwalk
      have hsettled := Conversation.settled_of_bare (deliver_progress hwalk).1
      obtain hall | ⟨e, hfault, hall⟩ := hall
      · rw [hall]
        have hrest := ih (fun k' hk' => hsub k' (List.mem_cons_of_mem _ hk')) p₁
        refine hrest.imp (fun c' h => hwalked.trans h) fun c' result h => ?_
        exact h.after hwalked hsettled fun _ m hm => hm
      · rw [hall]
        exact Closes.faulty hwalked (.inr (Frame.Walk.framing_of_error hfault))

/-- What has been found when the dump goes on after the walks over a datagram is what ends it. -/
theorem exists_ending_of_found {c₀ : Conversation} (hrecord : c.record d.data = (.ok (), c₀))
    (h : (deliverAll d (Frame.walk d.data) ks ⟨c₀, memory, {}⟩).progress? = some p)
    {found : Header × Bytes} (hfound : p.found.done = some found) :
    ks ≠ [] ∧ ∃ m, ending? c.port c.dumpSeq d.messages = some m ∧ m.header.isDone = true ∧
      found = (m.header, m.payload) := by
  have hsome : ks ≠ [] := by
    rintro rfl
    cases h
    cases hfound
  obtain ⟨hdone, hkind⟩ := found_of_deliverAll hsome hrecord h
  rw [hfound] at hdone
  obtain ⟨m, hending, hm⟩ := Option.map_eq_some_iff.mp hdone.symm
  exact ⟨hsome, m, hending, hkind m hending, hm.symm⟩

/-- What is made of what all walks over a datagram have come upon closes the dump, or it goes on. -/
theorem conclude_closes (hsilent : SilentBut ks c p.state) (hsettled : p.state.settled = c.settled)
    (hfound : ∀ found, p.found.done = some found → ks ≠ [] ∧
      ∃ m, ending? c.port c.dumpSeq d.messages = some m ∧ m.header.isDone = true ∧
        found = (m.header, m.payload)) :
    (conclude ks d p).Leads (SilentBut ks c) (Closes ks c d.messages) := by
  unfold conclude
  cases hdone : p.found.done with
  | some found =>
    obtain ⟨hsome, m, hending, hkind, rfl⟩ := hfound found hdone
    have hclosed {c' : Conversation} (hstate : c' = (onDone p.state m.header m.payload).2 ∨
        c' = (onDone p.state m.header m.payload).2.report [.dumpInterrupted]) :
        Closes ks c d.messages c' (onDone p.state m.header m.payload).1 :=
      .done hsome hsilent hsettled hending hkind hstate
    dsimp only
    generalize onDone p.state m.header m.payload = acted at hclosed ⊢
    obtain ⟨e | _, c₁⟩ := acted
    · exact hclosed (.inl rfl)
    · dsimp only
      split
      · exact hclosed (.inr rfl)
      · exact hclosed (.inl rfl)
  | none =>
    dsimp only
    split
    · exact hsilent.trans (SilentBut.of_silent (.single rfl))
    · split
      · exact hsilent
      · exact Closes.faulty hsilent (.inr ⟨_, rfl⟩)

/-- A datagram closes the dump, or nobody but consumers has told a code when the dump goes on. -/
theorem step_closes (ks : List (Consumer β)) (d : Datagram) (c : Conversation) (memory : β) :
    (step ks d c memory).Leads (SilentBut ks c) (Closes ks c d.messages) := by
  have hrecorded : SilentBut ks c (c.record d.data).2 := reported_record _ c d.data
  have hsettled := Conversation.settled_record c d.data
  rcases hrecord : c.record d.data with ⟨e | _, c₀⟩
  · have hstep : step ks d c memory = .finished c₀ memory (.error e) := by
      unfold step
      rw [hrecord]
    rw [hrecord] at hrecorded
    rw [hstep]
    exact Closes.faulty hrecorded (.inl (eq_of_record_error hrecord))
  · rw [hrecord] at hrecorded hsettled
    have hwalked := deliverAll_closes (fun k (hk : k ∈ ks) => hk) d ⟨c₀, memory, {}⟩
    obtain ⟨c₁, memory₁, result₁, hwalks, hstep⟩ | ⟨p, hwalks, hstep⟩ :=
      step_cases hrecord ks memory
    · rw [hstep]
      exact (hwalked.of_over hwalks).after hrecorded hsettled fun _ _ hm => hm
    · have hbare := deliverAll_bare d (Frame.walk d.data) ks ⟨c₀, memory, {}⟩
      have hstate : (deliverAll d (Frame.walk d.data) ks ⟨c₀, memory, {}⟩).state = p.state := by
        rcases Walked.eq_of_progress? hwalks with hwalk | hwalk <;> rw [hwalk] <;> rfl
      rw [hstate] at hbare
      rw [hstep]
      exact conclude_closes (hrecorded.trans (hwalked.of_progress? hwalks))
        ((Conversation.settled_of_bare hbare).trans hsettled)
        fun found hfound => exists_ending_of_found hrecord hwalks hfound

end Dump

open Dump (SilentBut)

/-- A dump fails as its endpoint does without anyone but consumers telling a code, or it closes. -/
theorem Connection.readDump_closes {σ β : Type} [Transport σ] (ks : List (Consumer β)) (memory : β)
    (c : Connection σ) :
    let run := readDump ks memory c
    let arrivals := (Transport.arrivals c.state.config.timeout c.endpoint).1
    (∃ e, run.1.1 = .error e ∧ Transport.Fails σ e ∧ SilentBut ks c.state run.2.state) ∨
      Dump.Closes ks c.state (arrivals.flatMap Datagram.messages) run.2.state run.1.1 := by
  intro run arrivals
  have hmore : ∀ {d c memory c' memory'}, (Dump.reader ks).step d c memory = .more c' memory' →
      SilentBut ks c c' :=
    fun {d c memory c' memory'} h => (Dump.step_closes ks d c memory).of_more h
  have hreceived : ∀ bytes sender truncated,
      (Event.received bytes sender truncated).tellsCode = true →
        Dump.Said ks (.received bytes sender truncated) :=
    fun _ _ _ h => (by cases h)
  obtain ⟨htakes, hfailed⟩ | ⟨before, last, c₁, memory₁, harrivals, htakes, hlast⟩ :=
    drain_cases rfl (Dump.steady_reader ks) c memory
  · exact .inl ⟨_, hfailed, Transport.fails_arrivals _ _, htakes.reported hmore hreceived⟩
  · right
    have hheard : SilentBut ks c₁ (c₁.heard last) := .single (hreceived _ _ _)
    have hsilent := (htakes.reported hmore hreceived).trans hheard
    have hclosed := (Dump.step_closes ks last (c₁.heard last) memory₁).of_finished hlast
    have hsettled := Dump.settled_of_takes htakes
    refine hclosed.after hsilent hsettled fun hsome m hm => ?_
    have hnone := (Dump.ending?_of_takes hsome htakes).2
    change arrivals = _ at harrivals
    rw [harrivals, List.flatMap_append, List.flatMap_cons, Dump.ending?_append hnone]
    exact Dump.ending?_append_of_some hm _

end Netlink
