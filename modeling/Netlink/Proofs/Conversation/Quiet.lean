import Netlink.Proofs.Conversation.Decision
import Netlink.Proofs.Conversation.DumpPass

/-! # Conversations that keep refusals to themselves

A conversation can be told to keep what the kernel refuses out of its log. Beside one that has not
been told so, it sends the same, receives the same and comes to the same: the two can be told apart
by nothing but what they have reported. -/

namespace Netlink

namespace Conversation

/-- The same conversation, told to keep refusals out of the log. -/
def muted (c : Conversation) : Conversation := { c with config := { c.config with quiet := true } }

/-- A conversation without its reports, muted: what does not depend on whether it is muted. -/
def hushed (c : Conversation) : Conversation := c.muted.bare

variable {c c' : Conversation}

theorem hushed_of_bare (h : c'.bare = c.bare) : c'.hushed = c.hushed := congrArg muted h

theorem eq_of_hushed (h : c'.hushed = c.hushed) :
    c'.protocol = c.protocol ∧ c'.port = c.port ∧ c'.config.timeout = c.config.timeout ∧
      c'.seq = c.seq ∧ c'.dumpSeq = c.dumpSeq ∧ c'.sink = c.sink := by
  simp only [hushed, muted, bare, mk.injEq, Config.mk.injEq] at h
  grind

theorem hushed_record (h : c'.hushed = c.hushed) (data : Bytes) :
    (c'.record data).1 = (c.record data).1 ∧
      (c'.record data).2.hushed = (c.record data).2.hushed := by
  obtain ⟨-, -, -, -, -, hsink⟩ := eq_of_hushed h
  unfold record
  rw [hsink]
  cases c.sink with
  | none => exact ⟨rfl, h⟩
  | some sink =>
    let written := (sink.write data).2
    exact ⟨rfl, congrArg (fun c : Conversation => { c with sink := some written }) h⟩

end Conversation

/-! ## Draining -/

/-- What a reader makes of a datagram, without what only the log shows. -/
def Verdict.hushed {β α : Type} : Verdict β α → Verdict β α
  | .more c memory => .more c.hushed memory
  | .finished c memory result => .finished c.hushed memory result

theorem Verdict.cases_of_hushed {β α : Type} {v v' : Verdict β α} (h : v'.hushed = v.hushed) :
    (∃ c c' memory, v = .more c memory ∧ v' = .more c' memory ∧ c'.hushed = c.hushed) ∨
      ∃ c c' memory result, v = .finished c memory result ∧ v' = .finished c' memory result ∧
        c'.hushed = c.hushed := by
  rcases v with ⟨c, memory⟩ | ⟨c, memory, result⟩ <;>
    rcases v' with ⟨c', memory'⟩ | ⟨c', memory', result'⟩ <;> try contradiction
  · obtain ⟨hstate, rfl⟩ := Verdict.more.inj h
    exact .inl ⟨c, c', memory', rfl, rfl, hstate⟩
  · obtain ⟨hstate, rfl, rfl⟩ := Verdict.finished.inj h
    exact .inr ⟨c, c', memory', result', rfl, rfl, hstate⟩

namespace Connection

variable {σ β α : Type} [Transport σ] {c c' : Connection σ}

/-- Two connections that nothing but reports can tell apart. -/
structure Matches (c' c : Connection σ) : Prop where
  endpoint : c'.endpoint = c.endpoint
  state : c'.state.hushed = c.state.hushed

/-- Readers that make the same of every datagram make the same of an endpoint. -/
theorem drain_matches (r r' : Reader β α) (hover : r'.survivesOverrun = r.survivesOverrun)
    (hstep : ∀ d memory {c c' : Conversation}, c'.hushed = c.hushed →
      (r'.step d c' memory).hushed = (r.step d c memory).hushed)
    (h : c'.Matches c) (memory : β) :
    (c'.drain r' memory).1 = (c.drain r memory).1 ∧
      (c'.drain r' memory).2.Matches (c.drain r memory).2 := by
  obtain ⟨s', state'⟩ := c'
  fun_induction Connection.drain r c memory generalizing s' state' with
  | case1 c memory d s hreceive state c₁ memory₁ hmore ih =>
    obtain ⟨rfl, hstate⟩ := h
    rw [← (Conversation.eq_of_hushed hstate).2.2.1] at hreceive
    have hheard : (state'.heard d).hushed = state.hushed := hstate
    obtain ⟨c₂, c₂', memory₂, hmore₂, hmore', hlater⟩ | ⟨_, _, _, _, hfinished, -⟩ :=
      Verdict.cases_of_hushed (hstep d memory hheard)
    · cases hmore.symm.trans hmore₂
      rw [drain_of_more hreceive hmore']
      exact ih s c₂' ⟨rfl, hlater⟩
    · cases hmore.symm.trans hfinished
  | case2 c memory d s hreceive state c₁ memory₁ result hfinished =>
    obtain ⟨rfl, hstate⟩ := h
    rw [← (Conversation.eq_of_hushed hstate).2.2.1] at hreceive
    have hheard : (state'.heard d).hushed = state.hushed := hstate
    obtain ⟨_, _, _, hmore, -⟩ | ⟨c₂, c₂', memory₂, result₂, hfinished₂, hfinished', hlater⟩ :=
      Verdict.cases_of_hushed (hstep d memory hheard)
    · cases hfinished.symm.trans hmore
    · cases hfinished.symm.trans hfinished₂
      rw [drain_of_finished hreceive hfinished']
      exact ⟨rfl, rfl, hlater⟩
  | case3 c memory fault s hreceive hsurvives ih =>
    obtain ⟨rfl, hstate⟩ := h
    rw [← (Conversation.eq_of_hushed hstate).2.2.1] at hreceive
    rw [← hover] at hsurvives
    rw [drain_of_overrun hreceive hsurvives]
    exact ih s _ ⟨rfl, hstate⟩
  | case4 c memory fault s hreceive hdies =>
    obtain ⟨rfl, hstate⟩ := h
    rw [← (Conversation.eq_of_hushed hstate).2.2.1] at hreceive
    rw [← hover] at hdies
    have hfails : ∀ fault', Error.io fault = .io fault' →
        (r'.survivesOverrun && fault'.isOverrun) = false := by
      rintro fault' ⟨⟩
      exact Bool.eq_false_iff.mpr hdies
    rw [drain_of_failed hreceive hfails]
    exact ⟨rfl, rfl, hstate⟩
  | case5 c memory e s hother hreceive =>
    obtain ⟨rfl, hstate⟩ := h
    rw [← (Conversation.eq_of_hushed hstate).2.2.1] at hreceive
    rw [drain_of_failed hreceive fun fault hfault => absurd hfault (hother fault)]
    exact ⟨rfl, rfl, hstate⟩

end Connection

/-! ## Exchanges -/

namespace Exchange

/-- Whether refusals are kept out of the log does not count for what is decided. -/
theorem judge_quiet (x : Exchange) (quiet : Bool) (sender : UInt32) (fs : List Frame)
    (c c' : Conversation) :
    (({ x with quiet } : Exchange).judge sender fs c').2 = (x.judge sender fs c).2 := by
  induction fs generalizing c c' with
  | nil => rfl
  | cons f fs ih =>
    rw [judge, judge]
    simp only [answers]
    split
    · exact ih _ _
    · split
      · cases ErrorReply.decode f.payload with
        | error e => rfl
        | ok reply =>
          dsimp only
          split
          · split
            · rfl
            · split
              · rfl
              · exact ih _ _
          · rfl
      · split
        · rfl
        · exact ih _ _

theorem step_quiet (x : Exchange) (quiet : Bool) (d : Datagram) (memory : Unit)
    {c c' : Conversation} (h : c'.hushed = c.hushed) :
    (({ x with quiet } : Exchange).step d c' memory).hushed = (x.step d c memory).hushed := by
  have hdecision := x.judge_quiet quiet d.sender (Frame.walk d.data).frames c c'
  have hbare := Conversation.hushed_of_bare (x.bare_judge d.sender (Frame.walk d.data).frames c)
  have hbare' := Conversation.hushed_of_bare
    (({ x with quiet } : Exchange).bare_judge d.sender (Frame.walk d.data).frames c')
  unfold step
  split
  · exact congrArg (Verdict.more · ()) h
  · dsimp only
    generalize x.judge d.sender (Frame.walk d.data).frames c = judged at hdecision hbare ⊢
    generalize ({ x with quiet } : Exchange).judge d.sender (Frame.walk d.data).frames c' = judged'
      at hdecision hbare' ⊢
    obtain ⟨c₁, decision⟩ := judged
    obtain ⟨c₁', decision'⟩ := judged'
    obtain rfl : decision' = decision := hdecision
    have hstate : c₁'.hushed = c₁.hushed := hbare'.trans (h.trans hbare.symm)
    cases decision' with
    | some result => exact congrArg (Verdict.finished · () result) hstate
    | none =>
      dsimp only
      split
      · exact congrArg (Verdict.finished · () _) hstate
      · exact congrArg (Verdict.more · ()) hstate

/-- Requests are numbered alike. -/
theorem stamp_hushed (wantsAnswer : Bool) (requests : List Draft) {c c' : Conversation}
    (h : c'.hushed = c.hushed) :
    (stamp wantsAnswer requests c').1 = (stamp wantsAnswer requests c).1 ∧
      (stamp wantsAnswer requests c').2.hushed = (stamp wantsAnswer requests c).2.hushed := by
  induction requests generalizing c c' with
  | nil => exact ⟨rfl, h⟩
  | cons d ds ih =>
    have hadvanced : c'.advance.hushed = c.advance.hushed := congrArg Conversation.advance h
    have hseq : c'.advance.seq = c.advance.seq := (Conversation.eq_of_hushed hadvanced).2.2.2.1
    obtain ⟨hlater, hstate⟩ := ih hadvanced
    rw [stamp, stamp, hseq]
    exact ⟨congrArg (_ :: ·) hlater, hstate⟩

end Exchange

namespace Connection

variable {σ : Type} [Transport σ] {c c' : Connection σ}

theorem send_matches (h : c'.Matches c) (pieces : List Bytes) :
    (send pieces c').1 = (send pieces c).1 ∧ (send pieces c').2.Matches (send pieces c).2 := by
  obtain ⟨s', state'⟩ := c'
  obtain ⟨rfl, hstate⟩ := h
  exact ⟨rfl, rfl, hstate⟩

/-- An exchange that keeps refusals out of the log is otherwise the same. -/
theorem exchange_quiet (h : c'.Matches c) (requests : List Draft) (wantsAnswer quiet quiet' : Bool)
    (handler : AckHandler) :
    let run := exchange requests wantsAnswer quiet handler c
    let run' := exchange requests wantsAnswer quiet' handler c'
    run'.1 = run.1 ∧ run'.2.Matches run.2 := by
  intro run run'
  by_cases hsome : requests = []
  · subst hsome
    exact ⟨rfl, h⟩
  · obtain ⟨hstamped, hstate⟩ := Exchange.stamp_hushed wantsAnswer requests h.state
    obtain ⟨hprotocol, hport, -, hlast, -⟩ := Conversation.eq_of_hushed hstate
    have hposed : Exchange.posed requests wantsAnswer quiet' handler c'.state =
        { Exchange.posed requests wantsAnswer quiet handler c.state with quiet := quiet' } := by
      simp only [Exchange.posed, hprotocol, hport, hlast]
    have hready : Connection.Matches ⟨c'.endpoint, (Exchange.stamp wantsAnswer requests c'.state).2⟩
        ⟨c.endpoint, (Exchange.stamp wantsAnswer requests c.state).2⟩ := ⟨h.endpoint, hstate⟩
    obtain ⟨houtcome, hsent⟩ :=
      send_matches hready ((Exchange.stamp wantsAnswer requests c.state).1.map Draft.encode)
    simp only [run, run', exchange_run hsome, hposed, hstamped]
    generalize send ((Exchange.stamp wantsAnswer requests c.state).1.map Draft.encode)
      ⟨c.endpoint, (Exchange.stamp wantsAnswer requests c.state).2⟩ = sent at houtcome hsent ⊢
    generalize send ((Exchange.stamp wantsAnswer requests c.state).1.map Draft.encode)
      ⟨c'.endpoint, (Exchange.stamp wantsAnswer requests c'.state).2⟩ = sent' at houtcome hsent ⊢
    obtain ⟨outcome, s⟩ := sent
    obtain ⟨outcome', s'⟩ := sent'
    obtain rfl : outcome' = outcome := houtcome
    cases outcome' with
    | error e => exact ⟨rfl, hsent⟩
    | ok u =>
      let x := Exchange.posed requests wantsAnswer quiet handler c.state
      let x' : Exchange := { x with quiet := quiet' }
      obtain ⟨hresult, hafter⟩ := drain_matches x.reader x'.reader rfl
        (fun d memory _ _ hstate => x.step_quiet quiet' d memory hstate) hsent ()
      have hdecision := congrArg Prod.fst hresult
      exact ⟨hdecision, hafter⟩

end Connection
/-! ## Dumps -/

namespace Dump

variable {β : Type} {k : Consumer β} {ks : List (Consumer β)} {sender : UInt32} {d : Datagram}
  {p p' : Progress β} {c c' : Conversation}

def Progress.hushed (p : Progress β) : Progress β := { p with state := p.state.hushed }

/-- What a walk came to, without what only the log shows. -/
def Walked.hushed : Walked β → Walked β
  | .through p => .through p.hushed
  | .atDone p => .atDone p.hushed
  | .over c memory result => .over c.hushed memory result

theorem hushed_onError (h : c'.hushed = c.hushed) (m : Message) :
    (onError c' m.header m.payload).1 = (onError c m.header m.payload).1 ∧
      (onError c' m.header m.payload).2.hushed = (onError c m.header m.payload).2.hushed := by
  obtain ⟨hprotocol, -⟩ := Conversation.eq_of_hushed h
  have hbare := Conversation.hushed_of_bare (onError_bare c m.header m.payload)
  have hbare' := Conversation.hushed_of_bare (onError_bare c' m.header m.payload)
  rw [onError_result, onError_result, hprotocol]
  exact ⟨rfl, hbare'.trans (h.trans hbare.symm)⟩

theorem hushed_onDone (h : c'.hushed = c.hushed) (header : Header) (payload : Bytes) :
    (onDone c' header payload).1 = (onDone c header payload).1 ∧
      (onDone c' header payload).2.hushed = (onDone c header payload).2.hushed := by
  refine ⟨?_, ?_⟩
  · unfold onDone
    split
    · rfl
    · dsimp only
      split <;> split <;> rfl
  · have hbare := Conversation.hushed_of_bare (bare_onDone c header payload)
    have hbare' := Conversation.hushed_of_bare (bare_onDone c' header payload)
    exact hbare'.trans (h.trans hbare.symm)

theorem hushed_deliver (k : Consumer β) (sender : UInt32) (fs : List Frame)
    (h : p'.hushed = p.hushed) :
    (deliver k sender fs p').hushed = (deliver k sender fs p).hushed := by
  induction fs generalizing p p' with
  | nil => exact congrArg Walked.through h
  | cons f fs ih =>
    let m := f.message sender
    obtain ⟨state', memory', found'⟩ := p'
    obtain ⟨hstate, hmemory, hfound⟩ := Progress.mk.inj h
    obtain rfl : memory' = p.memory := hmemory
    obtain rfl : found' = p.found := hfound
    obtain ⟨-, hport, -, -, hnumber, -⟩ := Conversation.eq_of_hushed hstate
    cases hours : related p.state.port p.state.dumpSeq m with
    | false =>
      have hours' : related state'.port state'.dumpSeq m = false := by rwa [hport, hnumber]
      rw [deliver_foreign hours, deliver_foreign (p := ⟨state', p.memory, p.found⟩) hours']
      exact ih (congrArg (Progress.mk · p.memory p.found) hstate)
    | true =>
      have hours' : related state'.port state'.dumpSeq m = true := by rwa [hport, hnumber]
      cases hdone : f.header.isDone with
      | true =>
        rw [deliver_done hours hdone, deliver_done (p := ⟨state', p.memory, p.found⟩) hours' hdone]
        exact congrArg Walked.atDone (congrArg (Progress.mk · p.memory _) hstate)
      | false =>
        cases herror : f.header.isError with
        | true =>
          obtain ⟨hresult, hended⟩ := hushed_onError hstate (m.clearing k.clears)
          rw [deliver_error hours hdone herror,
            deliver_error (p := ⟨state', p.memory, p.found⟩) hours' hdone herror]
          exact Walked.over.injEq .. ▸ ⟨hended, rfl, hresult⟩
        | false =>
          rw [deliver_object hours hdone herror,
            deliver_object (p := ⟨state', p.memory, p.found⟩) hours' hdone herror]
          obtain ⟨⟨⟨result, memory⟩, log⟩, haccept⟩ :
            ∃ x, k.accept (m.clearing k.clears) p.memory = x := ⟨_, rfl⟩
          rw [haccept]
          cases result with
          | error e => exact congrArg (Walked.over · _ _) hstate
          | ok u => exact ih (congrArg (Progress.mk · memory _) hstate)

theorem hushed_deliverAll (d : Datagram) (w : Frame.Walk) (ks : List (Consumer β))
    (h : p'.hushed = p.hushed) :
    (deliverAll d w ks p').hushed = (deliverAll d w ks p).hushed := by
  induction ks generalizing p p' with
  | nil => exact congrArg Walked.through h
  | cons k ks ih =>
    have hwalk := hushed_deliver k d.sender w.frames h
    rw [deliverAll, deliverAll]
    generalize deliver k d.sender w.frames p = q at hwalk ⊢
    generalize deliver k d.sender w.frames p' = q' at hwalk ⊢
    rcases q with q | q | ⟨c, memory, result⟩ <;>
      rcases q' with q' | q' | ⟨c', memory', result'⟩ <;> try contradiction
    · have hq : q'.hushed = q.hushed := Walked.through.inj hwalk
      obtain ⟨hstate, hmemory, -⟩ := Progress.mk.inj hq
      change q'.memory = q.memory at hmemory
      dsimp only
      split
      · rw [hmemory]
        exact congrArg (Walked.over · _ _) hstate
      · exact ih hq
    · exact ih (Walked.atDone.inj hwalk)
    · exact hwalk

theorem hushed_conclude (ks : List (Consumer β)) (d : Datagram) (h : p'.hushed = p.hushed) :
    (conclude ks d p').hushed = (conclude ks d p).hushed := by
  obtain ⟨state', memory', found'⟩ := p'
  obtain ⟨hstate, hmemory, hfound⟩ := Progress.mk.inj h
  obtain rfl : memory' = p.memory := hmemory
  obtain rfl : found' = p.found := hfound
  unfold conclude
  dsimp only
  cases p.found.done with
  | none =>
    dsimp only
    split
    · exact congrArg (Verdict.more · _) hstate
    · split
      · exact congrArg (Verdict.more · _) hstate
      · exact congrArg (Verdict.finished · _ _) hstate
  | some found =>
    obtain ⟨hresult, hended⟩ := hushed_onDone hstate found.1 found.2
    dsimp only
    generalize onDone p.state found.1 found.2 = ended at hresult hended ⊢
    generalize onDone state' found.1 found.2 = ended' at hresult hended ⊢
    obtain ⟨result, c⟩ := ended
    obtain ⟨result', c'⟩ := ended'
    obtain rfl : result' = result := hresult
    cases result' with
    | error e => exact congrArg (Verdict.finished · _ _) hended
    | ok u =>
      dsimp only
      split <;> exact congrArg (Verdict.finished · _ _) hended

theorem hushed_step (ks : List (Consumer β)) (d : Datagram) (memory : β)
    (h : c'.hushed = c.hushed) :
    (step ks d c' memory).hushed = (step ks d c memory).hushed := by
  obtain ⟨hrecorded, hstate⟩ := Conversation.hushed_record h d.data
  unfold step
  generalize c.record d.data = record at hrecorded hstate ⊢
  generalize c'.record d.data = record' at hrecorded hstate ⊢
  obtain ⟨result, c₀⟩ := record
  obtain ⟨result', c₀'⟩ := record'
  obtain rfl : result' = result := hrecorded
  cases result' with
  | error e => exact congrArg (Verdict.finished · _ _) hstate
  | ok u =>
    have hstart : Progress.hushed ⟨c₀', memory, {}⟩ = Progress.hushed ⟨c₀, memory, {}⟩ :=
      congrArg (Progress.mk · memory {}) hstate
    have hwalks := hushed_deliverAll d (Frame.walk d.data) ks hstart
    dsimp only
    generalize deliverAll d (Frame.walk d.data) ks ⟨c₀, memory, {}⟩ = w at hwalks ⊢
    generalize deliverAll d (Frame.walk d.data) ks ⟨c₀', memory, {}⟩ = w' at hwalks ⊢
    rcases w with q | q | ⟨c, memory, result⟩ <;>
      rcases w' with q' | q' | ⟨c', memory', result'⟩ <;> try contradiction
    · exact hushed_conclude ks d (Walked.through.inj hwalks)
    · exact hushed_conclude ks d (Walked.atDone.inj hwalks)
    · obtain ⟨hended, rfl, rfl⟩ := Walked.over.inj hwalks
      exact congrArg (Verdict.finished · _ _) hended

end Dump

/-- A dump that keeps refusals out of the log is otherwise the same. -/
theorem Connection.readDump_quiet {σ β : Type} [Transport σ] {c c' : Connection σ}
    (h : c'.Matches c) (ks : List (Consumer β)) (memory : β) :
    let run := readDump ks memory c
    let run' := readDump ks memory c'
    run'.1 = run.1 ∧ run'.2.Matches run.2 :=
  drain_matches (Dump.reader ks) (Dump.reader ks) rfl
    (fun d memory _ _ hstate => Dump.hushed_step ks d memory hstate) h memory

end Netlink
