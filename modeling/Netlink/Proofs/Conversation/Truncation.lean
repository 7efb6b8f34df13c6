import Netlink.Proofs.Conversation.Notes
import Netlink.Proofs.Conversation.PassingOver
import Netlink.Proofs.Conversation.Substitution
import Netlink.Proofs.Message.Cut

/-! # Datagrams cut short

When a datagram loses its end, a dump makes of it what it would make of the messages that are left
whole, and somebody who waits for an answer makes nothing of it. A dump that is copied is the
exception: the sink takes what has arrived of a message that was cut, and may be full sooner. -/

namespace Netlink

/-! ## What is left of a datagram -/

namespace Datagram

/-- The datagram with only these packets, and with its end; no datagram when there are none. -/
def only (d : Datagram) : List Packet → List Datagram
  | [] => []
  | ps => [{ d with data := Packet.records ps, truncated := false }]

variable {d : Datagram} {ps : List Packet}

theorem messages_cut (hrun : d.data = Packet.records ps) (k : Nat) :
    (d.cut k).messages = (Packet.within k ps).map (Packet.message d.sender) := by
  rw [messages, Frame.frames_walk_cut hrun k]
  exact (Frame.walk_of_records rfl d.sender).1

theorem alike_cut (hrun : d.data = Packet.records ps) (k : Nat) :
    Alike { d with data := Packet.records (Packet.within k ps), truncated := false } (d.cut k) := by
  have hkept : Packet.records (Packet.within k ps) = Packet.records (Packet.within k ps) := rfl
  obtain ⟨hmessages, hnofault, hempty⟩ := Frame.walk_of_records hkept d.sender
  refine ⟨?_, ?_, ?_⟩
  · rw [messages_cut hrun, ← hmessages]
    rfl
  · exact hnofault
  · exact hempty

theorem silent_cut (hrun : d.data = Packet.records ps) {k : Nat} (h : Packet.within k ps = []) :
    (d.cut k).Silent := by
  refine ⟨?_, rfl, rfl⟩
  rw [messages_cut hrun, h]
  rfl

/-- The whole messages of a datagram may stand for what is left of it. -/
theorem stands_cut (hrun : d.data = Packet.records ps) (k : Nat) :
    Stands (d.only (Packet.within k ps)) [d.cut k] := by
  cases h : Packet.within k ps with
  | nil => exact .skip (silent_cut hrun h) .nil
  | cons p kept =>
    have halike := alike_cut hrun k
    rw [h] at halike
    exact .cons halike .nil

end Datagram

theorem Dump.Recorded.noted {β : Type} {ks : List (Consumer β)} {ds : List Datagram}
    {c : Conversation} {memory : β} (h : Recorded ks ds c memory) (notes : Consumer.Notes) :
    Recorded (Consumer.notedFrom 0 ks) ds c (memory, notes) := by
  induction ds generalizing c memory notes with
  | nil => trivial
  | cons d ds ih =>
    refine ⟨h.1, ?_⟩
    intro c' s hmore
    have hstep := step_noted ks d (c.heard d) (memory, notes)
    change step (Consumer.notedFrom 0 ks) d (c.heard d) (memory, notes) = .more c' s at hmore
    rw [hmore] at hstep
    exact ih (h.2 c' s.1 hstep.symm) s.2

/-! ## Waiting for answers -/

/-- What comes of sending pieces: the failure of the send, or what arrives afterwards. -/
def Transport.answers {σ : Type} [Transport σ] (patience : Option Nat) (pieces : List Bytes)
    (s : σ) : Except Error (List Datagram × Error) :=
  match Transport.send pieces s with
  | (.ok (), s) => .ok (Transport.arrivals patience s)
  | (.error e, _) => .error e

namespace Exchange

/-- What has been reported makes no difference to a judgement. -/
theorem judge_unlogged (x : Exchange) (sender : UInt32) (fs : List Frame) (c c' : Conversation) :
    (x.judge sender fs c').2 = (x.judge sender fs c).2 := by
  have hall : ∀ f ∈ fs, (fun _ => true) f = false → x.answers sender f.header = false :=
    fun _ _ h => by cases h
  rw [← decision_filter x hall c' c, List.filter_eq_self.mpr fun _ _ => rfl]

theorem step_whole (x : Exchange) {d : Datagram} (hwhole : d.truncated = false)
    (c c' : Conversation) :
    (∃ c₁ c₁', x.step d c () = .more c₁ () ∧ x.step d c' () = .more c₁' ()) ∨
      ∃ c₁ c₁' result, x.step d c () = .finished c₁ () result ∧
        x.step d c' () = .finished c₁' () result := by
  have hjudge := judge_unlogged x d.sender (Frame.walk d.data).frames c c'
  unfold step
  rw [hwhole]
  simp only [Bool.false_eq_true, if_false]
  generalize x.judge d.sender (Frame.walk d.data).frames c = judged at hjudge ⊢
  generalize x.judge d.sender (Frame.walk d.data).frames c' = judged' at hjudge ⊢
  obtain ⟨c₁, decision⟩ := judged
  obtain ⟨c₁', decision'⟩ := judged'
  obtain rfl : decision' = decision := hjudge
  cases decision' with
  | some result => exact .inr ⟨c₁, c₁', result, rfl, rfl⟩
  | none =>
    cases (Frame.walk d.data).complaint? with
    | some e => exact .inr ⟨c₁, c₁', .error e, rfl, rfl⟩
    | none => exact .inl ⟨c₁, c₁', rfl, rfl⟩

/-- The wait comes to the same without the datagrams that have lost their end. -/
theorem fold_whole (x : Exchange) (e : Error) (ds : List Datagram) (c c' : Conversation) :
    x.reader.fold e (ds.filter (!·.truncated)) c' () = x.reader.fold e ds c () := by
  induction ds generalizing c c' with
  | nil => rfl
  | cons d ds ih =>
    by_cases hwhole : d.truncated = false
    · rw [List.filter_cons_of_pos (by simp [hwhole])]
      obtain ⟨c₁, c₁', hstep, hstep'⟩ | ⟨c₁, c₁', result, hstep, hstep'⟩ :=
        x.step_whole hwhole (c.heard d) (c'.heard d)
      · have hmore : x.reader.step d (c.heard d) () = .more c₁ () := hstep
        have hmore' : x.reader.step d (c'.heard d) () = .more c₁' () := hstep'
        rw [Reader.fold_of_more hmore, Reader.fold_of_more hmore']
        exact ih c₁ c₁'
      · have hended : x.reader.step d (c.heard d) () = .finished c₁ () result := hstep
        have hended' : x.reader.step d (c'.heard d) () = .finished c₁' () result := hstep'
        rw [Reader.fold_of_finished hended, Reader.fold_of_finished hended']
    · -- of a datagram without its end nothing stays but a report
      have hcut : d.truncated = true := by simpa using hwhole
      have hmore : x.reader.step d (c.heard d) () =
          .more ((c.heard d).report [.cutShort d.data.length]) () := by
        change x.step d (c.heard d) () = _
        rw [step, hcut]
        rfl
      rw [List.filter_cons_of_neg (by simp [hcut]), Reader.fold_of_more hmore]
      exact ih _ c'

end Exchange

namespace Connection

open Exchange (posed stamp)

variable {σ σ' : Type} [Transport σ] [Transport σ'] {c : Connection σ} {c' : Connection σ'}
  {requests : List Draft} {wantsAnswer quiet : Bool} {handler : AckHandler}
  {ds ds' : List Datagram} {failure : Error}

/-- An exchange whose requests can be sent is the wait over what arrives afterwards. -/
theorem exchange_of_answers (quiet : Bool) (handler : AckHandler) (hsome : requests ≠ [])
    (h : Transport.answers c.state.config.timeout
      ((stamp wantsAnswer requests c.state).1.map Draft.encode) c.endpoint = .ok (ds, failure)) :
    ∃ state, (exchange requests wantsAnswer quiet handler c).1 =
      ((posed requests wantsAnswer quiet handler c.state).reader.fold failure ds state ()).1 := by
  unfold Transport.answers at h
  rcases hsend : Transport.send ((stamp wantsAnswer requests c.state).1.map Draft.encode)
    c.endpoint with ⟨e | _, s⟩
  · rw [hsend] at h
    cases h
  · rw [hsend] at h
    have harrivals : Transport.arrivals c.state.config.timeout s = (ds, failure) :=
      Except.ok.inj h
    obtain ⟨state, hexchange⟩ := exchange_of_send quiet handler hsome hsend
    rw [harrivals] at hexchange
    exact ⟨state, hexchange⟩

/-- Two exchanges that see the same whole datagrams come to the same. -/
theorem exchange_whole (hstate : c'.state = c.state) (hsame : ds'.filter (!·.truncated) =
      ds.filter (!·.truncated))
    (h : Transport.answers c.state.config.timeout
      ((stamp wantsAnswer requests c.state).1.map Draft.encode) c.endpoint = .ok (ds, failure))
    (h' : Transport.answers c.state.config.timeout
      ((stamp wantsAnswer requests c.state).1.map Draft.encode) c'.endpoint = .ok (ds', failure)) :
    (exchange requests wantsAnswer quiet handler c').1 =
      (exchange requests wantsAnswer quiet handler c).1 := by
  by_cases hsome : requests = []
  · subst hsome
    rfl
  · rw [← hstate] at h'
    obtain ⟨state, hexchange⟩ := exchange_of_answers quiet handler hsome h
    obtain ⟨state', hexchange'⟩ := exchange_of_answers quiet handler hsome h'
    let x := posed requests wantsAnswer quiet handler c.state
    rw [hexchange, hexchange', hstate, ← x.fold_whole failure ds state state,
      ← x.fold_whole failure ds' state' state, hsame]

/-! ## Everyone who reads -/

open Consumer (Notes notedFrom)

/-- **A datagram cut short stands for its whole messages.** Of a run of packets that loses its end
at `k`, a dump makes what it makes of the packets whose messages end at or before `k`: its consumers
are handed the same and it comes to the same, as long as everything is recorded. Whoever waits for
answers comes to the same as without the datagram. -/
theorem cut_as_kept_messages (hstate : c'.state = c.state) {d : Datagram} {ps : List Packet}
    (hrun : d.data = Packet.records ps) (k : Nat) (before after : List Datagram)
    (failure : Error) :
    let kept := Packet.within k ps
    let arrived := before ++ d.cut k :: after
    let patience := c.state.config.timeout
    (∀ i p, kept[i]? = some p ↔
      ps[i]? = some p ∧ (Packet.records (ps.take i)).length + p.bytes.length ≤ k) ∧
    (∀ {β : Type} (ks : List (Consumer β)) (memory : β) (notes : Notes),
      Transport.arrivals patience c.endpoint = (arrived, failure) →
      Transport.arrivals patience c'.endpoint = (before ++ d.only kept ++ after, failure) →
      Dump.Recorded ks arrived c.state memory →
      Dump.Recorded ks (before ++ d.only kept ++ after) c'.state memory →
      (readDump ks memory c').1 = (readDump ks memory c).1 ∧
        (readDump (notedFrom 0 ks) (memory, notes) c').1 =
          (readDump (notedFrom 0 ks) (memory, notes) c).1) ∧
    (∀ requests,
      let pieces := (stamp false requests c.state).1.map Draft.encode
      Transport.answers patience pieces c.endpoint = .ok (arrived, failure) →
      Transport.answers patience pieces c'.endpoint = .ok (before ++ after, failure) →
      (requestAll requests c').1 = (requestAll requests c).1 ∧
        ∀ r, requests = [r] → (request r c').1 = (request r c).1) ∧
    ∀ r,
      let pieces := (stamp true [r] c.state).1.map Draft.encode
      Transport.answers patience pieces c.endpoint = .ok (arrived, failure) →
      Transport.answers patience pieces c'.endpoint = .ok (before ++ after, failure) →
      (ask r c').1 = (ask r c).1 := by
  intro kept arrived patience
  have hwhole : (before ++ after).filter (!·.truncated) = arrived.filter (!·.truncated) := by
    simp [arrived, Datagram.cut]
  refine ⟨fun i p => Packet.getElem?_within ps k i p, ?_, ?_, ?_⟩
  · intro β ks memory notes harrivals harrivals' hrecorded hrecorded'
    have hstands : Stands (before ++ d.only kept ++ after) arrived := by
      rw [List.append_assoc]
      exact (Stands.refl before).append ((Datagram.stands_cut hrun k).append (.refl after))
    exact ⟨Dump.readDump_stands hstate hstands harrivals harrivals' hrecorded hrecorded',
      Dump.readDump_stands hstate hstands harrivals harrivals' (hrecorded.noted notes)
        (hrecorded'.noted notes)⟩
  · intro requests pieces hanswers hanswers'
    have hall : (requestAll requests c').1 = (requestAll requests c).1 := by
      rw [requestAll_eq, requestAll_eq, hstate, exchange_whole hstate hwhole hanswers hanswers']
    refine ⟨hall, fun r hr => ?_⟩
    subst hr
    exact hall
  · intro r pieces hanswers hanswers'
    rw [ask_eq, ask_eq, hstate, exchange_whole hstate hwhole hanswers hanswers']

/-! ## Samples -/

open Dump (sampleObject sampleDone sampleTaker sampleArrivals arrivals_sample)

theorem answers_sample (pieces : List Bytes) (ds : List Datagram) (sink : Option Sink) :
    Transport.answers none pieces (sampleArrivals ds sink).endpoint = .ok (ds, .endOfFile) := by
  rw [← Script.due_datagrams]
  exact congrArg Except.ok (Script.arrivals_eq_due rfl none)

/-- Two messages of twenty bytes in one datagram. -/
def sampleObjects : List Packet :=
  [sampleObject 7 [11, 12, 13, 14] (by decide), sampleObject 7 [15, 16, 17, 18] (by decide)]

/-- The cut falls into the header of the second message. A single request and a question have their
answer behind the datagram. -/
theorem cut_as_kept_messages_sample :
    let d : Datagram := { data := Packet.records sampleObjects }
    let done : Datagram := { data := Packet.records [sampleDone 7] }
    let ack : Datagram := { data := Packet.records [sampleAck 8 0] }
    let dumped (ds : List Datagram) := (readDump [sampleTaker 0] () (sampleArrivals ds none)).1
    let requested (ds : List Datagram) := (request (Draft.new 16 1) (sampleArrivals ds none)).1
    let asked (ds : List Datagram) := (ask (Draft.new 16 1) (sampleArrivals ds none)).1
    dumped [d.cut 28, done] = dumped (d.only (sampleObjects.take 1) ++ [done]) ∧
      requested [d.cut 28, ack] = requested [ack] ∧ asked [d.cut 28, ack] = asked [ack] := by
  intro d done ack dumped requested asked
  have hkept : Packet.within 28 sampleObjects = sampleObjects.take 1 := rfl
  have hrun : d.data = Packet.records sampleObjects := rfl
  refine ⟨?_, ?_, ?_⟩
  · have hstate : (sampleArrivals (d.only (sampleObjects.take 1) ++ [done]) none).state =
        (sampleArrivals [d.cut 28, done] none).state := rfl
    obtain ⟨-, hdump, -⟩ := cut_as_kept_messages hstate hrun 28 [] [done] .endOfFile
    have harrivals := arrivals_sample (d.only (sampleObjects.take 1) ++ [done]) none
    rw [← hkept] at harrivals
    exact (hdump [sampleTaker 0] () (fun _ => []) (arrivals_sample _ none) harrivals
      (Dump.recorded_of_unbounded _ _ (fun _ h => by cases h) ())
      (Dump.recorded_of_unbounded _ _ (fun _ h => by cases h) ())).1.symm
  · have hstate : (sampleArrivals [ack] none).state =
        (sampleArrivals [d.cut 28, ack] none).state := rfl
    obtain ⟨-, -, htalk, -⟩ := cut_as_kept_messages hstate hrun 28 [] [ack] .endOfFile
    exact ((htalk [Draft.new 16 1] (answers_sample _ _ none) (answers_sample _ _ none)).2
      (Draft.new 16 1) rfl).symm
  · have hstate : (sampleArrivals [ack] none).state =
        (sampleArrivals [d.cut 28, ack] none).state := rfl
    obtain ⟨-, -, -, hask⟩ := cut_as_kept_messages hstate hrun 28 [] [ack] .endOfFile
    exact (hask (Draft.new 16 1) (answers_sample _ _ none) (answers_sample _ _ none)).symm

/-- A sink of forty bytes has no room for DONE behind the twenty-eight bytes that are left of two
messages, and has room for it behind the one that is left whole. -/
theorem full_sink_tells_cut :
    let d : Datagram := { data := Packet.records sampleObjects }
    let done : Datagram := { data := Packet.records [sampleDone 7] }
    let kept := Packet.within 28 sampleObjects
    let dumped (ds : List Datagram) :=
      (readDump [sampleTaker 0] () (sampleArrivals ds (some { limit := some 40 }))).1.1
    dumped [d.cut 28, done] = .error (.io .sinkFull) ∧ dumped (d.only kept ++ [done]) = .ok () := by
  have hfull : (readDump [sampleTaker 0] () (sampleArrivals
      [Datagram.cut { data := Packet.records sampleObjects } 28,
        { data := Packet.records [sampleDone 7] }] (some { limit := some 40 }))).1.1 =
      .error (.io .sinkFull) :=
    eq_error_of_failure? (by decide +kernel)
  have hfits : (readDump [sampleTaker 0] () (sampleArrivals
      (Datagram.only { data := Packet.records sampleObjects } (Packet.within 28 sampleObjects) ++
        [{ data := Packet.records [sampleDone 7] }]) (some { limit := some 40 }))).1.1 = .ok () :=
    eq_ok_of_isOk (by decide +kernel)
  intro d done kept dumped
  exact ⟨hfull, hfits⟩

end Connection
end Netlink
