import Netlink.Proofs.Conversation.Quiet
import Netlink.Proofs.Conversation.Telling

/-! # What a quiet conversation says

A conversation that keeps refusals out of its log tells no code that the kernel sent, whatever is
asked and whatever arrives, with one exception: a handler that writes the kernel's text to the log is
told of the DONE that ends a dump in any case. -/

namespace Netlink

/-- DONE comes with a text about a code, as whoever writes the kernel's text to the log sees it. -/
def Message.voiced (m : Message) : Bool :=
  (Ack.ofDone m.header m.payload).value.any AckHandler.logging.reports

open Conversation (Reported Silent Told)

/-! ## Exchanges -/

/-- A quiet wait tells no code when it closes. -/
theorem Exchange.Closes.silent {x : Exchange} {c c' : Conversation}
    {result : Except Error (Option Bytes)} (h : x.Closes c c' result) (hquiet : x.quiet = true) :
    Silent c c' := by
  cases h with
  | uncoded silent => exact silent
  | refused header silent =>
    rw [reportRefusal, hquiet]
    exact silent

/-- A quiet exchange tells no code. -/
theorem Connection.exchange_silent {σ : Type} [Transport σ] (requests : List Draft)
    (wantsAnswer : Bool) (handler : AckHandler) (c : Connection σ) :
    Silent c.state (exchange requests wantsAnswer true handler c).2.state := by
  obtain ⟨_, -, -, hsilent⟩ | hclosed := exchange_closes requests wantsAnswer true handler c
  · exact hsilent
  · exact hclosed.silent rfl

/-! ## Dumps -/

namespace Dump

variable {β : Type} {k : Consumer β} {ks : List (Consumer β)} {sender : UInt32} {d : Datagram}
  {fs : List Frame} {p : Progress β} {c c' : Conversation} {memory memory' : β}

/-- The consumer itself tells no code. -/
def Reticent (k : Consumer β) : Prop :=
  ∀ m memory, ∀ e ∈ (k.accept m memory).log, e.tellsCode = false

theorem silent_onError (hquiet : c.config.quiet = true) (h : Header) (payload : Bytes) :
    Silent c (onError c h payload).2 := by
  unfold onError
  split
  · exact .single rfl
  · dsimp only
    split
    · exact .single rfl
    · have hkept : (c.report (Ack.ofError h payload).log).config.quiet = true := hquiet
      rw [if_pos hkept]
      exact .report (Ack.log_ofError_silent h payload)

/-- A conversation that writes the kernel's text to the log tells the code in a DONE that comes with
a text, and no other if it is quiet or the code is no failure. -/
theorem told_onDone (hlogging : c.handler = .logging) {m : Message}
    (hcalm : 0 ≤ m.code ∨ c.config.quiet = true) :
    Told c (onDone c m.header m.payload).2 ↔ m.voiced = true := by
  let read := c.report (Ack.ofDone m.header m.payload).log
  have hread : Silent c read := .report (Ack.log_ofDone_silent m.header m.payload)
  cases hsplit : Wire.split? 4 m.payload with
  | none =>
    -- a DONE without a code has no text either
    have hmute : m.voiced = false := by
      unfold Message.voiced Ack.ofDone
      rw [hsplit]
      split <;> rfl
    have hsilent : Silent c (c.report [.shortDone]) := .single rfl
    have hstate : (onDone c m.header m.payload).2 = c.report [.shortDone] := by
      unfold onDone
      rw [hsplit]
    simp [hstate, hmute, hsilent.not_told]
  | some parts =>
    obtain ⟨front, rest⟩ := parts
    rw [onDone_state hsplit, Message.code_of_split? hsplit, if_pos (hcalm.imp_right .inr),
      Message.voiced]
    cases (Ack.ofDone m.header m.payload).value with
    | none => exact iff_of_false hread.not_told Bool.false_ne_true
    | some a =>
      have hlog : (read.acknowledge c.handler a).log = read.log ++ a.report := by
        rw [hlogging]
        rfl
      change Told c (read.acknowledge c.handler a) ↔ AckHandler.logging.reports a = true
      rw [Conversation.told_trans hread ⟨a.report, hlog, fun _ _ => trivial⟩,
        Conversation.told_of_log hlog, a.report_tellsCode]
      simp [hread.not_told]

/-- Messages are handed over quietly. -/
theorem silent_deliver (hreticent : Reticent k) (hquiet : p.state.config.quiet = true) :
    Silent p.state (deliver k sender fs p).state := by
  induction fs generalizing p with
  | nil => exact .refl _ _
  | cons f fs ih =>
    let m := f.message sender
    cases hours : related p.state.port p.state.dumpSeq m with
    | false =>
      rw [deliver_foreign hours]
      exact Reported.trans (.single rfl) (ih hquiet)
    | true =>
      cases hdone : f.header.isDone with
      | true =>
        rw [deliver_done hours hdone]
        exact .refl _ _
      | false =>
        cases herror : f.header.isError with
        | true =>
          rw [deliver_error hours hdone herror]
          exact silent_onError hquiet _ _
        | false =>
          have hsilent := hreticent (m.clearing k.clears) p.memory
          rw [deliver_object hours hdone herror]
          obtain ⟨⟨⟨result, memory⟩, log⟩, haccept⟩ :
            ∃ x, k.accept (m.clearing k.clears) p.memory = x := ⟨_, rfl⟩
          rw [haccept] at hsilent ⊢
          cases result with
          | error e => exact .report hsilent
          | ok u => exact Reported.trans (.report hsilent) (ih hquiet)

/-! ## One datagram -/

/-- What a single walk over a recorded datagram leads to. -/
theorem step_single {c₀ : Conversation} (hrecord : c.record d.data = (.ok (), c₀)) (memory : β) :
    step [k] d c memory =
      match deliver k d.sender (Frame.walk d.data).frames ⟨c₀, memory, {}⟩ with
      | .over c memory result => .finished c memory result
      | .atDone p => conclude [k] d p
      | .through p =>
        match if d.truncated then none else (Frame.walk d.data).error? with
        | some e => .finished p.state p.memory (.error e)
        | none => conclude [k] d p := by
  rw [step_eq hrecord, deliverAll]
  cases deliver k d.sender (Frame.walk d.data).frames ⟨c₀, memory, {}⟩ with
  | «over» c memory result => rfl
  | atDone p => rfl
  | through p =>
    dsimp only
    cases if d.truncated then none else (Frame.walk d.data).error? with
    | none => rfl
    | some e => rfl

/-- DONE says nothing of files or of framing. -/
theorem doneResult_ne {e : Error} (he : (∃ fault, e = .io fault) ∨ ∃ fault, e = .framing fault)
    (m : Message) : .error e ≠ doneResult m := by
  unfold doneResult
  obtain ⟨fault, rfl⟩ | ⟨fault, rfl⟩ := he
  · split
    · nofun
    · split <;> nofun
  · split
    · nofun
    · split <;> nofun

/-- What a quiet conversation tells when a datagram is made something of, as far as the stream leads
in the datagram. -/
def Tells (c : Conversation) : Course × β → Verdict β Unit → Prop
  | (.going, memory), .more c' memory' => memory' = memory ∧ Silent c c'
  | (.going, _), .finished c' _ result => Silent c c' ∧ ∀ m, result ≠ doneResult m
  | (.refused _, _), .finished c' _ _ => Silent c c'
  | (.ended m, _), .finished c' _ result =>
    Reported (fun _ => True) c c' ∧
      (Told c c' ↔ m.header.isDone = true ∧ result = doneResult m ∧ m.voiced = true)
  | _, _ => False

theorem tells_of_silent (course : Course × β) {result : Except Error Unit} (h : Silent c c')
    (hresult : ∀ m, result ≠ doneResult m) : Tells c course (.finished c' memory result) := by
  obtain ⟨_ | _ | m, memory'⟩ := course
  · exact ⟨h, hresult⟩
  · exact h
  · exact ⟨h.mono fun _ _ => trivial, iff_of_false h.not_told fun hacted => hresult m hacted.2.1⟩

/-- What is made of a walk that came to no message that ends the dump tells nothing. -/
theorem tells_conclude (hsilent : Silent c p.state) (hnone : p.found.done = none) :
    Tells c (.going, p.memory) (conclude [k] d p) := by
  unfold conclude
  rw [hnone]
  dsimp only
  split
  · exact ⟨rfl, hsilent.trans (.single rfl)⟩
  · split
    · exact ⟨rfl, hsilent⟩
    · exact ⟨hsilent, doneResult_ne (.inr ⟨_, rfl⟩)⟩

/-- What is made of a walk that came to DONE tells the code that comes with a text. -/
theorem tells_conclude_done {m : Message} (hsilent : Silent c p.state)
    (hquiet : p.state.config.quiet = true) (hlogging : p.state.handler = .logging)
    (hfound : p.found.done = some (m.header, m.payload)) (hdone : m.header.isDone = true) :
    Tells c (.ended m, memory) (conclude [k] d p) := by
  have hresult := onDone_result p.state m
  have hacted := reported_onDone p.state m.header m.payload
  have hextends : Reported (fun _ => True) c (onDone p.state m.header m.payload).2 :=
    (hsilent.mono fun _ _ => trivial).trans (hacted.mono fun _ _ => trivial)
  have htold : Told c (onDone p.state m.header m.payload).2 ↔ m.voiced = true := by
    rw [Conversation.told_trans hsilent hacted, told_onDone hlogging (.inr hquiet)]
    simp [hsilent.not_told]
  unfold conclude
  rw [hfound]
  dsimp only
  generalize onDone p.state m.header m.payload = acted at hresult hextends htold ⊢
  obtain ⟨e | _, c₁⟩ := acted
  · simp only [Tells, hdone, hresult.symm, true_and]
    exact ⟨hextends, htold⟩
  · simp only [Tells, hdone, hresult.symm, true_and]
    split
    · have hwarned : Silent c₁ (c₁.report [.dumpInterrupted]) := .single rfl
      refine ⟨hextends.trans (hwarned.mono fun _ _ => trivial), ?_⟩
      rw [Conversation.told_trans hextends hwarned, htold]
      simp [hwarned.not_told]
    · exact ⟨hextends, htold⟩

/-- What a quiet conversation tells of a datagram is read off the messages in it and the result. A
failure to record the datagram or to walk it to its end does not show in the messages, but it is
nothing that DONE could say. -/
theorem step_tells (hreticent : Reticent k) (hquiet : c.config.quiet = true)
    (hlogging : c.handler = .logging) (d : Datagram) (memory : β) :
    Tells c (follow k c.port c.dumpSeq d.messages memory) (step [k] d c memory) := by
  have hrecorded : Silent c (c.record d.data).2 := reported_record _ c d.data
  have hsettled := Conversation.settled_record c d.data
  rcases hrecord : c.record d.data with ⟨e | _, c₀⟩
  · have hstep : step [k] d c memory = .finished c₀ memory (.error e) := by
      unfold step
      rw [hrecord]
    rw [hrecord] at hrecorded
    rw [hstep]
    exact tells_of_silent _ hrecorded (doneResult_ne (.inl ⟨_, eq_of_record_error hrecord⟩))
  · rw [hrecord] at hrecorded hsettled
    obtain ⟨-, hport, hconfig, -, hnumber, -⟩ := Conversation.eq_of_settled hsettled
    have hquiet₀ : c₀.config.quiet = true := by rw [hconfig]; exact hquiet
    have hagrees := deliver_agrees k d.sender (Frame.walk d.data).frames ⟨c₀, memory, {}⟩
    have hwalked : Silent c (deliver k d.sender (Frame.walk d.data).frames
        ⟨c₀, memory, {}⟩).state :=
      hrecorded.trans (silent_deliver hreticent hquiet₀)
    have hbare := deliver_bare k d.sender (Frame.walk d.data).frames ⟨c₀, memory, {}⟩
    rw [step_single hrecord]
    dsimp only at hagrees hbare
    rw [hport, hnumber] at hagrees
    change Agrees c₀ none (follow k c.port c.dumpSeq d.messages memory) _ at hagrees
    generalize follow k c.port c.dumpSeq d.messages memory = course at hagrees ⊢
    generalize deliver k d.sender (Frame.walk d.data).frames ⟨c₀, memory, {}⟩ = walked
      at hagrees hwalked hbare ⊢
    obtain ⟨course, memory'⟩ := course
    cases course with
    | going =>
      rcases walked with p | p | ⟨c', memory'', result⟩
      · obtain ⟨rfl, hnone⟩ := hagrees
        dsimp only
        split
        · rename_i e herror
          have hframing : ∃ fault, e = .framing fault := by
            split at herror
            · cases herror
            · obtain ⟨declared, -, rfl⟩ := Option.map_eq_some_iff.mp herror
              exact ⟨_, rfl⟩
          exact ⟨hwalked, doneResult_ne (.inr hframing)⟩
        · exact tells_conclude hwalked hnone
      · exact hagrees.elim
      · exact hagrees.elim
    | refused e =>
      rcases walked with p | p | ⟨c', memory'', result⟩
      · exact hagrees.elim
      · exact hagrees.elim
      · exact hwalked
    | ended m =>
      rcases walked with p | p | ⟨c', memory'', result⟩
      · exact hagrees.elim
      · obtain ⟨hdone, rfl, hfound⟩ := hagrees
        have hstate : p.state.settled = c.settled :=
          (Conversation.settled_of_bare hbare).trans hsettled
        obtain ⟨-, -, hkept, -, -, hheard⟩ := Conversation.eq_of_settled hstate
        exact tells_conclude_done hwalked (by rw [hkept]; exact hquiet)
          (by rw [hheard]; exact hlogging) hfound hdone
      · obtain ⟨herror, -, -⟩ := hagrees
        have hnot : ¬ Told c c' := hwalked.not_told
        refine ⟨hwalked.mono fun _ _ => trivial, iff_of_false hnot fun hacted => ?_⟩
        rw [herror] at hacted
        cases hacted.1

/-! ## All datagrams -/

/-- Before the last datagram the dump tells nothing and comes to no message that ends it. -/
theorem silent_of_takes {ds : List Datagram} (hreticent : Reticent k)
    (hquiet : c.config.quiet = true) (hlogging : c.handler = .logging)
    (h : (reader [k]).Takes ds c memory c' memory') :
    Silent c c' ∧ c'.settled = c.settled ∧
      follow k c.port c.dumpSeq (ds.flatMap Datagram.messages) memory = (.going, memory') := by
  induction h with
  | nil => exact ⟨.refl _ _, rfl, rfl⟩
  | @cons d ds c c₁ c' memory memory₁ memory' hstep later ih =>
    change step [k] d (c.heard d) memory = .more c₁ memory₁ at hstep
    have hsettled : c₁.settled = (c.heard d).settled := settled_of_step_more hstep
    change c₁.settled = c.settled at hsettled
    obtain ⟨-, hport, hconfig, -, hnumber, hhandler⟩ := Conversation.eq_of_settled hsettled
    have hheard : Silent c (c.heard d) := .single rfl
    have htells := step_tells (c := c.heard d) hreticent hquiet hlogging d memory
    change Tells _ (follow k c.port c.dumpSeq d.messages memory) _ at htells
    rw [hstep] at htells
    obtain ⟨hlater, hsettled', hfollow⟩ :=
      ih (by rw [hconfig]; exact hquiet) (by rw [hhandler]; exact hlogging)
    rw [hport, hnumber] at hfollow
    rw [List.flatMap_cons, follow_append]
    generalize follow k c.port c.dumpSeq d.messages memory = course at htells ⊢
    obtain ⟨course, memory₂⟩ := course
    cases course with
    | going =>
      obtain ⟨rfl, hsilent⟩ := htells
      exact ⟨(hheard.trans hsilent).trans hlater, hsettled'.trans hsettled, hfollow⟩
    | refused e => exact htells.elim
    | ended m => exact htells.elim

/-- A dump is ended by this DONE: the consumer takes all that comes before it in the stream, and the
dump comes to what DONE says. -/
structure ClosedBy (k : Consumer β) (port number : UInt32) (ms : List Message) (memory : β)
    (result : Except Error Unit) (m : Message) : Prop where
  reached : (follow k port number ms memory).1 = .ended m
  done : m.header.isDone = true
  acted : result = doneResult m

/-- A quiet dump tells a code exactly if a DONE with a text ends it. -/
theorem told_readDump {σ : Type} [Transport σ] {c : Connection σ} (hreticent : Reticent k)
    (hquiet : c.state.config.quiet = true) (hlogging : c.state.handler = .logging) (memory : β) :
    let run := Connection.readDump [k] memory c
    let arrivals := (Transport.arrivals c.state.config.timeout c.endpoint).1
    Told c.state run.2.state ↔ ∃ m, m.voiced = true ∧
      ClosedBy k c.state.port c.state.dumpSeq (arrivals.flatMap Datagram.messages) memory
        run.1.1 m := by
  intro run arrivals
  obtain ⟨htakes, -⟩ | ⟨before, last, c₁, memory₁, harrivals, htakes, hlast⟩ :=
    Connection.drain_cases rfl (steady_reader [k]) c memory
  · obtain ⟨hsilent, -, hfollow⟩ := silent_of_takes hreticent hquiet hlogging htakes
    change follow _ _ _ (arrivals.flatMap _) _ = _ at hfollow
    refine iff_of_false hsilent.not_told ?_
    rintro ⟨m, -, hreached, -⟩
    rw [hfollow] at hreached
    cases hreached
  · obtain ⟨hsilent, hsettled, hfollow⟩ := silent_of_takes hreticent hquiet hlogging htakes
    obtain ⟨-, hport, hconfig, -, hnumber, hhandler⟩ := Conversation.eq_of_settled hsettled
    have hheard : Silent c₁ (c₁.heard last) := .single rfl
    have htells := step_tells (c := c₁.heard last) hreticent (by rw [← hquiet, ← hconfig]; rfl)
      (by rw [← hlogging, ← hhandler]; rfl) last memory₁
    change Tells _ (follow k c₁.port c₁.dumpSeq last.messages memory₁) (step _ _ _ _) at htells
    change step [k] last (c₁.heard last) memory₁ = .finished run.2.state run.1.2 run.1.1 at hlast
    rw [hlast, hport, hnumber] at htells
    have hbefore := hsilent.trans hheard
    let later := (Transport.arrivals c.state.config.timeout run.2.endpoint).1
    change arrivals = before ++ last :: later at harrivals
    have hwhole : follow k c.state.port c.state.dumpSeq (arrivals.flatMap Datagram.messages)
        memory =
        follow k c.state.port c.state.dumpSeq
          (last.messages ++ later.flatMap Datagram.messages) memory₁ := by
      rw [harrivals, List.flatMap_append, List.flatMap_cons, follow_append, hfollow]
    rw [follow_append] at hwhole
    generalize follow k c.state.port c.state.dumpSeq last.messages memory₁ = course
      at htells hwhole
    obtain ⟨course, memory₂⟩ := course
    cases course with
    | going =>
      -- the dump failed behind the messages, so no later message ended it
      obtain ⟨hlater, hfailed⟩ := htells
      refine iff_of_false (hbefore.trans hlater).not_told ?_
      rintro ⟨m, -, -, -, hacted⟩
      exact hfailed m hacted
    | refused e =>
      refine iff_of_false (hbefore.trans htells).not_told ?_
      rintro ⟨m, -, hreached, -⟩
      rw [hwhole] at hreached
      cases hreached
    | ended m =>
      obtain ⟨hextends, htold⟩ := htells
      rw [Conversation.told_trans hbefore hextends, htold]
      simp only [hbefore.not_told, false_or]
      constructor
      · rintro ⟨hdone, hacted, hvoiced⟩
        exact ⟨m, hvoiced, by rw [hwhole], hdone, hacted⟩
      · rintro ⟨m', hvoiced, hreached, hdone, hacted⟩
        rw [hwhole] at hreached
        cases hreached
        exact ⟨hdone, hacted, hvoiced⟩

end Dump

/-! ## Muted conversations -/

namespace Connection

variable {σ β : Type} [Transport σ]

/-- The same conversation over the same endpoint, told to keep refusals out of the log. -/
def muted (c : Connection σ) : Connection σ := { c with state := c.state.muted }

omit [Transport σ] in
theorem muted_matches (c : Connection σ) : c.muted.Matches c := ⟨rfl, rfl⟩

/-- An exchange that is quiet beside one that may not be. -/
theorem exchange_muted {c c' : Connection σ} (h : c'.Matches c) (requests : List Draft)
    (wantsAnswer quiet : Bool) :
    let run := exchange requests wantsAnswer quiet .logging c
    let run' := exchange requests wantsAnswer true .logging c'
    run'.1 = run.1 ∧ run'.2.Matches run.2 ∧ Silent c'.state run'.2.state := by
  obtain ⟨hresult, hmatches⟩ := exchange_quiet h requests wantsAnswer quiet true .logging
  exact ⟨hresult, hmatches, exchange_silent requests wantsAnswer .logging c'⟩

/-- **A muted conversation is the same conversation and says nothing of refusals, except that a dump
that is ended by DONE tells the code that comes with a text.** Muting changes no result, nothing that
is sent or received, and no call of the consumer of a dump; a single request that is quiet is a
request of a muted conversation. -/
theorem muted_silent_but_voiced {c : Connection σ} (hlogging : c.state.handler = .logging)
    {k : Consumer β} (hreticent : Dump.Reticent k) (memory : β) :
    (∀ requests,
      let run := requestAll requests c
      let run' := requestAll requests c.muted
      run'.1 = run.1 ∧ run'.2.Matches run.2 ∧ Silent c.state run'.2.state) ∧
    (∀ d,
      let run := ask d c
      let run' := ask d c.muted
      run'.1 = run.1 ∧ run'.2.Matches run.2 ∧ Silent c.state run'.2.state) ∧
    (∀ d,
      let run := request d c
      let run' := requestQuietly d c
      run'.1 = run.1 ∧ run'.2.Matches run.2 ∧ Silent c.state run'.2.state) ∧
    (readDump [k.traced] (memory, []) c.muted).1 = (readDump [k.traced] (memory, []) c).1 ∧
      let run := readDump [k] memory c
      let run' := readDump [k] memory c.muted
      let received := (Transport.arrivals c.state.config.timeout c.endpoint).1
      run'.1 = run.1 ∧ run'.2.Matches run.2 ∧
        (Told c.state run'.2.state ↔ ∃ m, m.voiced = true ∧
          Dump.ClosedBy k c.state.port c.state.dumpSeq (received.flatMap Datagram.messages) memory
            run.1.1 m) := by
  have hmuted := c.muted_matches
  have hquiet : c.muted.state.config.quiet = true := rfl
  have hmutedLogging : c.muted.state.handler = .logging := hlogging
  refine ⟨fun requests => ?_, fun d => ?_, fun d => ?_, ?_, ?_⟩
  · obtain ⟨hresult, hrest⟩ := exchange_muted hmuted requests false c.state.config.quiet
    rw [requestAll_run, requestAll_run, hquiet, hmutedLogging, hlogging]
    refine ⟨?_, hrest⟩
    dsimp only at hresult ⊢
    rw [hresult]
  · obtain ⟨hresult, hrest⟩ := exchange_muted hmuted [d] true c.state.config.quiet
    rw [ask_run, ask_run, hquiet, hmutedLogging, hlogging]
    refine ⟨?_, hrest⟩
    dsimp only at hresult ⊢
    rw [hresult]
  · have hitself : c.Matches c := ⟨rfl, rfl⟩
    obtain ⟨hresult, hrest⟩ := exchange_muted hitself [d] false c.state.config.quiet
    rw [request, requestAll_run, requestQuietly_run, hlogging]
    refine ⟨?_, hrest⟩
    dsimp only at hresult ⊢
    rw [hresult]
  · exact (readDump_quiet hmuted [k.traced] (memory, [])).1
  · obtain ⟨hresult, hmatches⟩ := readDump_quiet hmuted [k] memory
    have htold := Dump.told_readDump hreticent hquiet hmutedLogging memory
    dsimp only at hresult htold
    rw [hresult] at htold
    exact ⟨hresult, hmatches, htold⟩

/-- The text of a refusal, as an attribute. -/
def sampleText : Bytes := [7, 0, 1, 0, 110, 111, 0, 0]

/-- A refusal of request 8 with a text. -/
def sampleRefusal : Packet :=
  .fitting ⟨0, MessageType.error, MessageFlag.ackAttributes, 8, 42⟩
    ([0xff, 0xff, 0xff, 0xff, 16, 0, 0, 0] ++ List.replicate 12 0 ++ sampleText) (by decide)

/-- DONE that breaks off dump 7 with a text. -/
def sampleBroken : Packet :=
  .fitting ⟨0, MessageType.done, MessageFlag.multi ||| MessageFlag.ackAttributes, 7, 42⟩
    ([0xea, 0xff, 0xff, 0xff] ++ sampleText) (by decide)

/-- A request is refused with a text: the muted conversation comes to the same and says nothing. -/
theorem muted_silent_but_voiced_sample :
    let c := Dump.sampleArrivals [{ data := Packet.records [sampleRefusal] }] none
    let k := Dump.sampleTaker 0
    c.state.handler = .logging ∧ Dump.Reticent k ∧
      (∃ e ∈ (request (Draft.new 16 1) c).2.state.log, e.tellsCode = true) ∧
      (requestQuietly (Draft.new 16 1) c).1 = .error (.kernel 1 (some "no")) ∧
      Silent c.state (requestQuietly (Draft.new 16 1) c).2.state := by
  intro c k
  have hreticent : Dump.Reticent k := by
    intro m memory e he
    cases he
  have hrefused : (request (Draft.new 16 1) c).1 = .error (.kernel 1 (some "no")) :=
    eq_error_of_failure? (by decide +kernel)
  obtain ⟨-, -, hquietly, -⟩ := muted_silent_but_voiced (c := c) rfl hreticent ()
  obtain ⟨hresult, -, hsilent⟩ := hquietly (Draft.new 16 1)
  exact ⟨rfl, hreticent, by decide +kernel, hresult.trans hrefused, hsilent⟩

/-- A muted dump tells the code in the DONE that breaks it off. -/
theorem muted_but_told :
    let c := (Dump.sampleArrivals [{ data := Packet.records [sampleBroken] }] none).muted
    c.state.handler = .logging ∧ c.state.config.quiet = true ∧ Dump.Reticent (Dump.sampleTaker 0) ∧
      .kernelError "no" (-22) ∈ (readDump [Dump.sampleTaker 0] () c).2.state.log := by
  intro c
  refine ⟨rfl, rfl, ?_, by decide +kernel⟩
  intro m memory e he
  cases he

end Connection
end Netlink
