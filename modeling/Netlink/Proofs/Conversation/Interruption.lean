import Netlink.Proofs.Conversation.DumpPass

/-! # Whether a dump was interrupted

The kernel marks a message of a dump when objects changed while they were dumped. A dump that ends
with DONE warns of it if a mark that some consumer leaves in place stands on a message of the last
datagram. A mark in an earlier datagram is forgotten, so the warning tells of the whole dump only if
the last datagram is marked whenever an earlier one is. -/

namespace Netlink

/-! ## Reports between two points -/

namespace Conversation

/-- Between two points of a conversation events were reported, and all are of this kind. -/
def Reported (P : Event → Prop) (c c' : Conversation) : Prop :=
  ∃ events, c'.log = c.log ++ events ∧ ∀ e ∈ events, P e

namespace Reported

variable {P : Event → Prop} {c c₁ c' : Conversation}

theorem refl (P : Event → Prop) (c : Conversation) : Reported P c c :=
  ⟨[], (List.append_nil _).symm, nofun⟩

theorem trans (h : Reported P c c₁) (h' : Reported P c₁ c') : Reported P c c' := by
  obtain ⟨events, hlog, hall⟩ := h
  obtain ⟨events', hlog', hall'⟩ := h'
  refine ⟨events ++ events', by rw [hlog', hlog, List.append_assoc], fun e he => ?_⟩
  rcases List.mem_append.mp he with he | he
  · exact hall e he
  · exact hall' e he

theorem report {events : List Event} (h : ∀ e ∈ events, P e) : Reported P c (c.report events) :=
  ⟨events, rfl, h⟩

theorem single {e : Event} (h : P e) : Reported P c (c.report [e]) :=
  .report (List.forall_mem_singleton.mpr h)

theorem mono {Q : Event → Prop} (h : Reported P c c') (hkinds : ∀ e, P e → Q e) :
    Reported Q c c' := by
  obtain ⟨events, hlog, hall⟩ := h
  exact ⟨events, hlog, fun e he => hkinds e (hall e he)⟩

theorem acknowledge {handler : AckHandler} {a : Ack} (h : ∀ e ∈ handler.log a, P e) :
    Reported P c (c.acknowledge handler a) :=
  ⟨handler.log a, rfl, h⟩

end Reported
end Conversation

theorem AckHandler.log_ne_interrupted (handler : AckHandler) (a : Ack) :
    ∀ e ∈ handler.log a, e ≠ .dumpInterrupted := by
  intro e he
  cases handler with
  | recording => cases he
  | logging =>
    change e ∈ a.report at he
    unfold Ack.report at he
    split at he
    · cases he
    · split at he <;> rw [List.mem_singleton] at he <;> rw [he] <;> nofun

theorem Ack.log_ofDone_ne_interrupted (h : Header) (payload : Bytes) :
    ∀ e ∈ (ofDone h payload).log, e ≠ .dumpInterrupted := by
  intro e he
  obtain ⟨deficit, declared, rfl⟩ := log_ofDone he
  nofun

namespace Dump

open Conversation (Reported)

theorem doneReport_ne_interrupted (errno : Nat) :
    ∀ e ∈ doneReport errno, e ≠ .dumpInterrupted := by
  intro e he
  unfold doneReport at he
  split at he
  · cases he
  · split at he <;> rw [List.mem_singleton] at he <;> rw [he] <;> nofun

theorem reported_onDone (c : Conversation) (h : Header) (payload : Bytes) :
    Reported (· ≠ .dumpInterrupted) c (onDone c h payload).2 := by
  have hread : Reported (· ≠ .dumpInterrupted) c (c.report (Ack.ofDone h payload).log) :=
    .report (Ack.log_ofDone_ne_interrupted h payload)
  -- whether or not the code is a failure, no more is said than `doneReport`
  have hend : ∀ (c₁ : Conversation) (code : Int32) (text : Option String) (silent : Prop)
      [Decidable silent], Reported (· ≠ .dumpInterrupted) c c₁ →
      Reported (· ≠ .dumpInterrupted) c
        (if 0 ≤ code then (.ok (), c₁)
        else (.error (Error.ofCode code text),
          if silent then c₁ else c₁.report (doneReport (Error.number code))) :
          Except Error Unit × Conversation).2 := by
    intro c₁ code text silent _ hc₁
    split
    · exact hc₁
    · dsimp only
      split
      · exact hc₁
      · exact hc₁.trans (.report (doneReport_ne_interrupted _))
  unfold onDone
  split
  · exact .report (by simp)
  · dsimp only
    cases (Ack.ofDone h payload).value with
    | none => exact hend _ _ _ _ hread
    | some a =>
      have hacknowledged := hread.trans (.acknowledge (c.handler.log_ne_interrupted a))
      exact hend _ _ _ _ hacknowledged

/-! ## Marks -/

variable {β : Type} {k : Consumer β} {ks : List (Consumer β)} {sender : UInt32} {d : Datagram}
  {fs : List Frame} {p q : Progress β} {c c' : Conversation} {memory memory' : β}

/-- On one of these messages of the dump, up to the first that ends it, some consumer leaves the
mark of an interruption. -/
def Marked (ks : List (Consumer β)) (port number : UInt32) (ms : List Message) : Prop :=
  ∃ m ∈ seen port number ms, ∃ k ∈ ks, (m.clearing k.clears).header.isInterrupted = true

theorem marked_cons {port number : UInt32} {ms : List Message} :
    Marked (k :: ks) port number ms ↔
      (∃ m ∈ seen port number ms, (m.clearing k.clears).header.isInterrupted = true) ∨
        Marked ks port number ms := by
  constructor
  · rintro ⟨m, hm, k', hk, hmark⟩
    rcases List.mem_cons.mp hk with rfl | hk
    · exact .inl ⟨m, hm, hmark⟩
    · exact .inr ⟨m, hm, k', hk, hmark⟩
  · rintro (⟨m, hm, hmark⟩ | ⟨m, hm, k', hk, hmark⟩)
    · exact ⟨m, hm, k, List.mem_cons_self, hmark⟩
    · exact ⟨m, hm, k', List.mem_cons_of_mem _ hk, hmark⟩

theorem marked_append {port number : UInt32} {ms : List Message}
    (h : ending? port number ms = none) (later : List Message) :
    Marked ks port number (ms ++ later) ↔
      Marked ks port number ms ∨ Marked ks port number later := by
  have hseen : seen port number ms = objects port number ms := by rw [seen, h]; simp
  simp only [Marked, seen_append h, hseen, List.mem_append, or_and_right, exists_or]

/-- The consumer itself says nothing of interruptions. -/
def Discreet (k : Consumer β) : Prop :=
  ∀ m memory, ∀ e ∈ (k.accept m memory).log, e ≠ .dumpInterrupted

/-- A walk finds the marks that its consumer leaves in place, and does not report them. -/
theorem deliver_marks (hdiscreet : Discreet k)
    (h : (deliver k sender fs p).progress? = some q) :
    Reported (· ≠ .dumpInterrupted) p.state q.state ∧
      (q.found.interrupted = true ↔ p.found.interrupted = true ∨
        ∃ m ∈ seen p.state.port p.state.dumpSeq (fs.map (Frame.message sender)),
          (m.clearing k.clears).header.isInterrupted = true) := by
  induction fs generalizing p with
  | nil =>
    cases h
    refine ⟨.refl _ _, ?_⟩
    simp [seen, objects, ending?]
  | cons f fs ih =>
    let m := f.message sender
    rw [List.map_cons, seen_cons]
    cases hours : related p.state.port p.state.dumpSeq m with
    | false =>
      rw [deliver_foreign hours] at h
      obtain ⟨hreported, hmarks⟩ := ih h
      exact ⟨Reported.trans (.report (by simp)) hreported, hmarks⟩
    | true =>
      cases hdone : f.header.isDone with
      | true =>
        have hends : ends m = true := by simp [ends, m, Frame.message, hdone]
        rw [deliver_done hours hdone] at h
        cases h
        rw [hends]
        refine ⟨.refl _ _, ?_⟩
        simp only [if_true, List.mem_singleton, exists_eq_left, Bool.or_eq_true]
        rfl
      | false =>
        cases herror : f.header.isError with
        | true =>
          rw [deliver_error hours hdone herror] at h
          cases h
        | false =>
          have hends : ends m = false := by simp [ends, m, Frame.message, hdone, herror]
          have hquiet := hdiscreet (m.clearing k.clears) p.memory
          rw [deliver_object hours hdone herror] at h
          rw [hends]
          simp only [if_true, Bool.false_eq_true, if_false, List.mem_cons, exists_eq_or_imp]
          obtain ⟨⟨⟨result, memory⟩, log⟩, haccept⟩ :
            ∃ x, k.accept (m.clearing k.clears) p.memory = x := ⟨_, rfl⟩
          rw [haccept] at h hquiet
          cases result with
          | error e => cases h
          | ok u =>
            obtain ⟨hreported, hmarks⟩ := ih h
            refine ⟨Reported.trans (.report hquiet) hreported, hmarks.trans ?_⟩
            rw [Bool.or_eq_true, or_assoc]
            rfl

theorem Walks.marks (h : Walks d ks p q) (hdiscreet : ∀ k ∈ ks, Discreet k) :
    Reported (· ≠ .dumpInterrupted) p.state q.state ∧
      (q.found.interrupted = true ↔
        p.found.interrupted = true ∨ Marked ks p.state.port p.state.dumpSeq d.messages) := by
  induction h with
  | nil p => exact ⟨.refl _ _, by simp [Marked]⟩
  | @cons k ks p p₁ q walk later ih =>
    obtain ⟨hbare, -⟩ := deliver_progress walk
    obtain ⟨-, hport, -, hnumber, -⟩ := Conversation.eq_of_bare hbare
    obtain ⟨hreported, hmarks⟩ := deliver_marks (hdiscreet k List.mem_cons_self) walk
    obtain ⟨hreported', hmarks'⟩ := ih fun k' hk => hdiscreet k' (List.mem_cons_of_mem _ hk)
    rw [hport, hnumber] at hmarks'
    refine ⟨hreported.trans hreported', ?_⟩
    rw [hmarks', hmarks, or_assoc, marked_cons]
    rfl

/-! ## The warning -/

theorem reported_record (P : Event → Prop) (c : Conversation) (data : Bytes) :
    Reported P c (c.record data).2 := by
  unfold Conversation.record
  split <;> exact ⟨[], (List.append_nil _).symm, nofun⟩

/-- While the dump goes on, nothing is said of interruptions. -/
theorem reported_of_takes {ds : List Datagram} (hsome : ks ≠ [])
    (hdiscreet : ∀ k ∈ ks, Discreet k) (h : (reader ks).Takes ds c memory c' memory') :
    Reported (· ≠ .dumpInterrupted) c c' := by
  induction h with
  | nil => exact .refl _ _
  | @cons d ds c c₁ c' memory memory₁ memory' hstep later ih =>
    obtain ⟨-, c₀, p, hrecord, hwalks, -, hstate⟩ := step_more hsome hstep
    have hheard : Reported (· ≠ .dumpInterrupted) c (c.heard d) := .report (by simp)
    have hrecorded := reported_record (· ≠ .dumpInterrupted) (c.heard d) d.data
    rw [hrecord] at hrecorded
    have hwalked := (hheard.trans hrecorded).trans (hwalks.marks hdiscreet).1
    refine Reported.trans ?_ ih
    rcases hstate with rfl | rfl
    · exact hwalked
    · exact hwalked.trans (.report (by simp))

/-- A datagram that ends the dump with DONE is warned of if it is marked. -/
theorem step_warns (hsome : ks ≠ []) (hdiscreet : ∀ k ∈ ks, Discreet k)
    (h : step ks d c memory = .finished c' memory' (.ok ())) {m : Message}
    (hending : ending? c.port c.dumpSeq d.messages = some m) (hdone : m.header.isDone = true) :
    ∃ events, c'.log = c.log ++ events ∧
      (.dumpInterrupted ∈ events ↔ Marked ks c.port c.dumpSeq d.messages) := by
  obtain ⟨m', c₀, hending', hrecord, hends⟩ := step_ok hsome h
  obtain rfl : m = m' := Option.some.inj (hending.symm.trans hending')
  rw [EndsWith, hdone] at hends
  obtain ⟨p, c₁, hwalks, -, hacted, hstate⟩ := hends
  have hrecorded := reported_record (· ≠ .dumpInterrupted) c d.data
  rw [hrecord] at hrecorded
  obtain ⟨-, hport, hnumber⟩ := Conversation.eq_of_record hrecord
  obtain ⟨hwalked, hmarks⟩ := hwalks.marks hdiscreet
  dsimp only at hmarks
  rw [hport, hnumber] at hmarks
  have hended := reported_onDone p.state m.header m.payload
  rw [hacted] at hended
  obtain ⟨events, hlog, hother⟩ := (hrecorded.trans hwalked).trans hended
  have hunsaid : .dumpInterrupted ∉ events := fun he => hother _ he rfl
  simp only [Bool.false_eq_true, false_or] at hmarks
  rw [← hmarks, hstate]
  cases p.found.interrupted with
  | false => exact ⟨events, hlog, by simp [hunsaid]⟩
  | true =>
    refine ⟨events ++ [.dumpInterrupted], ?_, by simp⟩
    change c₁.log ++ _ = _
    rw [hlog, List.append_assoc]

/-- **A dump that ends with DONE warns of the marks in its last datagram.** The warning tells whether
any message of the dump was marked exactly if a mark in an earlier datagram comes with one in the
last. -/
theorem interrupted_reported_iff {σ : Type} [Transport σ] {c : Connection σ} (hsome : ks ≠ [])
    (hdiscreet : ∀ k ∈ ks, Discreet k) (hok : (Connection.readDump ks memory c).1.1 = .ok ()) :
    let after := Connection.readDump ks memory c
    let patience := c.state.config.timeout
    let marked (ds : List Datagram) :=
      Marked ks c.state.port c.state.dumpSeq (ds.flatMap Datagram.messages)
    ∃ before last m,
      (Transport.arrivals patience c.endpoint).1 =
        before ++ last :: (Transport.arrivals patience after.2.endpoint).1 ∧
      ending? c.state.port c.state.dumpSeq
        ((before ++ [last]).flatMap Datagram.messages) = some m ∧
      (m.header.isDone = true → ∃ events, after.2.state.log = c.state.log ++ events ∧
        (.dumpInterrupted ∈ events ↔ marked [last]) ∧
        ((.dumpInterrupted ∈ events ↔ marked (before ++ [last])) ↔
          (marked before → marked [last]))) := by
  intro after patience marked
  obtain ⟨before, last, c₁, memory₁, harrivals, htakes, hlast, hsettled, hnone⟩ :=
    readDump_ok hsome hok
  obtain ⟨m, c₀, hending, -⟩ := step_ok hsome hlast
  obtain ⟨-, hport, -, -, hnumber, -⟩ := Conversation.eq_of_settled hsettled
  have hwhole : (before ++ [last]).flatMap Datagram.messages =
      before.flatMap Datagram.messages ++ last.messages := by simp
  have hsingle : [last].flatMap Datagram.messages = last.messages := by simp
  refine ⟨before, last, m, harrivals, ?_, fun hdone => ?_⟩
  · change ending? c₁.port c₁.dumpSeq last.messages = some m at hending
    rw [hwhole, ending?_append hnone, ← hport, ← hnumber, hending]
  · have hheard : Reported (· ≠ .dumpInterrupted) c₁ (c₁.heard last) := .report (by simp)
    obtain ⟨earlier, hlog, hother⟩ := (reported_of_takes hsome hdiscreet htakes).trans hheard
    obtain ⟨events, hlog', hwarned⟩ := step_warns hsome hdiscreet hlast hending hdone
    change (.dumpInterrupted ∈ events ↔ Marked ks c₁.port c₁.dumpSeq last.messages) at hwarned
    rw [hport, hnumber] at hwarned
    have hunsaid : .dumpInterrupted ∉ earlier := fun he => hother _ he rfl
    have hsaid : .dumpInterrupted ∈ earlier ++ events ↔ marked [last] := by
      simp only [List.mem_append, hunsaid, false_or, marked, hsingle, hwarned]
    refine ⟨earlier ++ events, ?_, hsaid, ?_⟩
    · change after.2.state.log = _ at hlog'
      rw [hlog', ← List.append_assoc, ← hlog]
    · -- the dump is marked before its last datagram or in it
      have hmarked : marked (before ++ [last]) ↔ marked before ∨ marked [last] := by
        simp only [marked, hwhole, hsingle, marked_append hnone]
      rw [hsaid, hmarked]
      constructor
      · intro h hbefore
        exact h.mpr (.inl hbefore)
      · intro h
        exact ⟨.inr, fun hany => hany.elim h id⟩

/-- A message of dump 7 with the mark of an interruption. -/
def sampleMarked : Packet :=
  .fitting ⟨0, 16, MessageFlag.multi ||| MessageFlag.interrupted, 7, 42⟩ [1, 2, 3, 4] (by decide)

/-- A conversation that waits for dump 7, over an endpoint that brings two datagrams. -/
def sampleDatagrams (first last : List Packet) : Connection Script where
  endpoint := { queue := [
    { outcome := .datagram { data := Packet.records first } },
    { outcome := .datagram { data := Packet.records last } }] }
  state := { protocol := .route, port := 42, config := {}, seq := 7, dumpSeq := 7 }

/-- The mark in the last datagram is cleared for one consumer and left for the other. -/
theorem interrupted_reported_iff_sample :
    let ks := [sampleTaker MessageFlag.interrupted, sampleTaker 0]
    let c := sampleDatagrams [sampleObject 7 [1] (by decide)] [sampleMarked, sampleDone 7]
    ks ≠ [] ∧ (∀ k ∈ ks, Discreet k) ∧ (Connection.readDump ks () c).1.1 = .ok () ∧
      .dumpInterrupted ∈ (Connection.readDump ks () c).2.state.log := by
  intro ks c
  have hsome : ks ≠ [] := List.cons_ne_nil _ _
  have hdiscreet : ∀ k ∈ ks, Discreet k := by
    intro k hk m memory e he
    simp only [ks, List.mem_cons, List.not_mem_nil, or_false] at hk
    rcases hk with rfl | rfl <;> cases he
  have hok : (Connection.readDump ks () c).1.1 = .ok () :=
    eq_ok_of_isOk (by decide +kernel)
  refine ⟨hsome, hdiscreet, hok, ?_⟩
  obtain ⟨before, last, m, harrivals, hending, hdone⟩ := interrupted_reported_iff hsome hdiscreet hok
  let first : Datagram := { data := Packet.records [sampleObject 7 [1] (by decide)] }
  let second : Datagram := { data := Packet.records [sampleMarked, sampleDone 7] }
  have hqueue : (Transport.arrivals c.state.config.timeout c.endpoint).1 = [first] ++ [second] := by
    decide +kernel
  have hnothing : (Transport.arrivals c.state.config.timeout
      (Connection.readDump ks () c).2.endpoint).1 = [] := by decide +kernel
  rw [hqueue, hnothing] at harrivals
  obtain ⟨rfl, hlast⟩ := List.append_inj' harrivals rfl
  obtain rfl : second = last := (List.cons.inj hlast).1
  have hend : ending? 42 7 (([first] ++ [second]).flatMap Datagram.messages) =
      some ((sampleDone 7).message 0) := by decide +kernel
  obtain rfl : (sampleDone 7).message 0 = m := Option.some.inj (hend.symm.trans hending)
  obtain ⟨events, hlog, hwarned, -⟩ := hdone rfl
  have hmarked : Marked ks 42 7 ([second].flatMap Datagram.messages) :=
    ⟨sampleMarked.message 0, by decide +kernel, sampleTaker 0, by simp [ks], by decide⟩
  rw [hlog]
  exact List.mem_append_right _ (hwarned.mpr hmarked)

/-- A dump is marked, ends well with DONE, and nothing is said: the mark is in its first datagram and
DONE in its second. -/
theorem marked_but_not_reported :
    let k := sampleTaker 0
    let c := sampleDatagrams [sampleMarked] [sampleDone 7]
    let after := Connection.readDump [k] () c
    let received := (Transport.arrivals c.state.config.timeout c.endpoint).1
    let messages := received.flatMap Datagram.messages
    after.1.1 = .ok () ∧ ending? 42 7 messages = some ((sampleDone 7).message 0) ∧
      Marked [k] 42 7 messages ∧ .dumpInterrupted ∉ after.2.state.log := by
  have hok : (Connection.readDump [sampleTaker 0] ()
      (sampleDatagrams [sampleMarked] [sampleDone 7])).1.1 = .ok () :=
    eq_ok_of_isOk (by decide +kernel)
  intro k c after received messages
  refine ⟨hok, by decide +kernel, ⟨sampleMarked.message 0, by decide +kernel, k, ?_, by decide⟩,
    by decide +kernel⟩
  exact List.mem_singleton.mpr rfl

end Dump
end Netlink
