import Netlink.Proofs.Conversation.DumpPass

/-! # Datagrams that a dump cannot tell apart

To a dump a datagram is its messages, a fault that they end with and the bytes left over. Of one
that lost its end neither a fault nor bytes left over count, so it may stand for a whole datagram,
and one that shows no message at all for nothing. Only a sink, which takes the bytes as they come,
can tell the difference: when it cannot take them. -/

namespace Netlink

namespace Conversation

/-- There is no sink, or it takes as much as there is. -/
def Unbounded (c : Conversation) : Prop := ∀ sink, c.sink = some sink → sink.limit = none

theorem Unbounded.of_bare {c c' : Conversation} (h : c.Unbounded) (hbare : c'.bare = c.bare) :
    c'.Unbounded := by
  obtain ⟨-, -, -, -, hsink⟩ := eq_of_bare hbare
  rw [Unbounded, hsink]
  exact h

theorem Unbounded.record {c : Conversation} (h : c.Unbounded) (data : Bytes) :
    ∃ c₀, c.record data = (.ok (), c₀) ∧ c₀.Unbounded := by
  unfold Conversation.record
  cases hsink : c.sink with
  | none => exact ⟨c, rfl, h⟩
  | some sink =>
    have hlimit : sink.limit = none := h sink hsink
    have hwritten : (sink.write data).1 = .ok () := by simp [Sink.write, hlimit]
    refine ⟨{ c with sink := some (sink.write data).2 }, Prod.ext hwritten rfl, ?_⟩
    intro sink' hsink'
    rw [← Option.some.inj hsink']
    exact hlimit

end Conversation

/-! ## What counts of a datagram -/

namespace Datagram

/-- The failure of a walk over the datagram that comes to its end. -/
def fault? (d : Datagram) : Option Error :=
  if d.truncated then none else (Frame.walk d.data).error?

/-- The bytes of the datagram that ought to have been a message. -/
def leftover (d : Datagram) : Bytes := if d.truncated then [] else (Frame.walk d.data).rest

/-- A dump makes the same of both datagrams. -/
structure Alike (d' d : Datagram) : Prop where
  messages : d'.messages = d.messages
  fault : d'.fault? = d.fault?
  leftover : d'.leftover = d.leftover

/-- A dump makes nothing of the datagram. -/
structure Silent (d : Datagram) : Prop where
  messages : d.messages = []
  fault : d.fault? = none
  leftover : d.leftover = []

theorem Alike.refl (d : Datagram) : Alike d d := ⟨rfl, rfl, rfl⟩

end Datagram

/-- Datagrams that a dump makes the same of as of others, among which there may be some that it
makes nothing of. -/
inductive Stands : List Datagram → List Datagram → Prop
  | nil : Stands [] []
  | cons {d' d : Datagram} {ds' ds : List Datagram} (alike : d'.Alike d) (later : Stands ds' ds) :
      Stands (d' :: ds') (d :: ds)
  | skip {d : Datagram} {ds' ds : List Datagram} (silent : d.Silent) (later : Stands ds' ds) :
      Stands ds' (d :: ds)

theorem Stands.refl (ds : List Datagram) : Stands ds ds := by
  induction ds with
  | nil => exact .nil
  | cons d ds ih => exact .cons (.refl d) ih

theorem Stands.append {before' before after' after : List Datagram} (h : Stands before' before)
    (hafter : Stands after' after) : Stands (before' ++ after') (before ++ after) := by
  induction h with
  | nil => exact hafter
  | cons alike _ ih => exact .cons alike ih
  | skip silent _ ih => exact .skip silent ih

/-- What a reader makes of a datagram, without what only the log and the sink show. -/
def Verdict.settled {β α : Type} : Verdict β α → Verdict β α
  | .more c memory => .more c.settled memory
  | .finished c memory result => .finished c.settled memory result

/-- Two readers that settle alike both go on, or both come to the same end. -/
theorem Verdict.cases_of_settled {β α : Type} {v v' : Verdict β α} (h : v'.settled = v.settled) :
    (∃ c c' memory, v = .more c memory ∧ v' = .more c' memory ∧ c'.settled = c.settled) ∨
      ∃ c c' memory result, v = .finished c memory result ∧ v' = .finished c' memory result := by
  rcases v with ⟨c, memory⟩ | ⟨c, memory, result⟩ <;>
    rcases v' with ⟨c', memory'⟩ | ⟨c', memory', result'⟩ <;> try contradiction
  · obtain ⟨hstate, rfl⟩ := Verdict.more.inj h
    exact .inl ⟨c, c', memory', rfl, rfl, hstate⟩
  · obtain ⟨-, rfl, rfl⟩ := Verdict.finished.inj h
    exact .inr ⟨c, c', memory', result', rfl, rfl⟩

namespace Dump

variable {β : Type}

/-! ## What a walk comes to -/

def Progress.settled (p : Progress β) : Progress β :=
  ⟨p.state.settled, p.memory, ⟨p.found.done, false⟩⟩

/-- What a walk came to, without what only the log and the sink show. -/
def Walked.settled : Walked β → Walked β
  | .through p => .through p.settled
  | .atDone p => .atDone p.settled
  | .over c memory result => .over c.settled memory result

theorem Progress.eq_of_settled {p p' : Progress β} (h : p'.settled = p.settled) :
    p'.state.settled = p.state.settled ∧ p'.memory = p.memory ∧ p'.found.done = p.found.done := by
  obtain ⟨hstate, hmemory, hfound⟩ := Progress.mk.inj h
  exact ⟨hstate, hmemory, (Findings.mk.inj hfound).1⟩

theorem Progress.settled_eq {p p' : Progress β} (hstate : p'.state.settled = p.state.settled)
    (hmemory : p'.memory = p.memory) (hdone : p'.found.done = p.found.done) :
    p'.settled = p.settled := by
  rw [settled, settled, hstate, hmemory, hdone]

/-- Two walks that come as far as the same stream leads come to the same. -/
theorem Agrees.settled {c c' : Conversation} {done : Option (Header × Bytes)} {course : Course × β}
    {w w' : Walked β} (hstate : w'.state.settled = w.state.settled)
    (hprotocol : c'.protocol = c.protocol) (h' : Agrees c' done course w')
    (h : Agrees c done course w) : w'.settled = w.settled := by
  obtain ⟨course, memory⟩ := course
  cases course with
  | going =>
    rcases w with p | p | ⟨c₁, memory₁, result⟩ <;>
      rcases w' with p' | p' | ⟨c₁', memory₁', result'⟩ <;> try contradiction
    exact congrArg Walked.through
      (Progress.settled_eq hstate (h'.1.trans h.1.symm) (h'.2.trans h.2.symm))
  | refused e =>
    rcases w with p | p | ⟨c₁, memory₁, result⟩ <;>
      rcases w' with p' | p' | ⟨c₁', memory₁', result'⟩ <;> try contradiction
    obtain ⟨rfl, rfl⟩ := h
    obtain ⟨rfl, rfl⟩ := h'
    exact congrArg (Walked.over · _ _) hstate
  | ended m =>
    rcases w with p | p | ⟨c₁, memory₁, result⟩ <;>
      rcases w' with p' | p' | ⟨c₁', memory₁', result'⟩ <;> try contradiction
    · exact congrArg Walked.atDone
        (Progress.settled_eq hstate (h'.2.1.trans h.2.1.symm) (h'.2.2.trans h.2.2.symm))
    · exact absurd h.1 (by rw [h'.1]; decide)
    · exact absurd h'.1 (by rw [h.1]; decide)
    · obtain ⟨-, rfl, rfl⟩ := h
      obtain ⟨-, rfl, rfl⟩ := h'
      rw [hprotocol]
      exact congrArg (Walked.over · _ _) hstate

theorem settled_deliver (k : Consumer β) {sender sender' : UInt32} {fs fs' : List Frame}
    {p p' : Progress β} (hp : p'.settled = p.settled)
    (hmessages : fs'.map (Frame.message sender') = fs.map (Frame.message sender)) :
    (deliver k sender' fs' p').settled = (deliver k sender fs p).settled := by
  obtain ⟨hstate, hmemory, hdone⟩ := Progress.eq_of_settled hp
  obtain ⟨hprotocol, hport, -, -, hnumber, -⟩ := Conversation.eq_of_settled hstate
  have hbare := Conversation.settled_of_bare (deliver_bare k sender fs p)
  have hbare' := Conversation.settled_of_bare (deliver_bare k sender' fs' p')
  have hagrees := deliver_agrees k sender fs p
  have hagrees' := deliver_agrees k sender' fs' p'
  rw [hmessages, hport, hnumber, hmemory, hdone] at hagrees'
  exact hagrees'.settled (hbare'.trans (hstate.trans hbare.symm)) hprotocol hagrees

/-! ## One datagram for another -/

variable {d d' : Datagram} {ks : List (Consumer β)} {p p' : Progress β}

theorem settled_deliverAll (ks : List (Consumer β)) (h : d'.Alike d) (hp : p'.settled = p.settled) :
    (deliverAll d' (Frame.walk d'.data) ks p').settled =
      (deliverAll d (Frame.walk d.data) ks p).settled := by
  induction ks generalizing p p' with
  | nil => exact congrArg Walked.through hp
  | cons k ks ih =>
    have hwalk := settled_deliver k hp h.messages
    have hfault : (if d'.truncated then none else (Frame.walk d'.data).error?) =
        if d.truncated then none else (Frame.walk d.data).error? := h.fault
    rw [deliverAll, deliverAll, hfault]
    generalize deliver k d.sender (Frame.walk d.data).frames p = w at hwalk ⊢
    generalize deliver k d'.sender (Frame.walk d'.data).frames p' = w' at hwalk ⊢
    rcases w with q | q | ⟨c, memory, result⟩ <;>
      rcases w' with q' | q' | ⟨c', memory', result'⟩ <;> try contradiction
    · have hq : q'.settled = q.settled := Walked.through.inj hwalk
      obtain ⟨hstate, hmemory, -⟩ := Progress.eq_of_settled hq
      dsimp only
      split
      · rw [hmemory]
        exact congrArg (Walked.over · _ _) hstate
      · exact ih hq
    · exact ih (Walked.atDone.inj hwalk)
    · exact hwalk

theorem onDone_alike {c c' : Conversation} (hstate : c'.settled = c.settled) (h : Header)
    (payload : Bytes) :
    (onDone c' h payload).1 = (onDone c h payload).1 ∧
      (onDone c' h payload).2.settled = (onDone c h payload).2.settled := by
  refine ⟨?_, ?_⟩
  · unfold onDone
    split
    · rfl
    · dsimp only
      split <;> split <;> rfl
  · have hbare := Conversation.settled_of_bare (bare_onDone c h payload)
    have hbare' := Conversation.settled_of_bare (bare_onDone c' h payload)
    exact hbare'.trans (hstate.trans hbare.symm)

/-- Without DONE, what is left over of a datagram decides whether the dump goes on. -/
theorem settled_conclude_of_none (hnone : p.found.done = none) :
    (conclude ks d p).settled =
      if ks.isEmpty || d.leftover.isEmpty then .more p.state.settled p.memory
      else .finished p.state.settled p.memory (.error (.framing (.remnant d.leftover.length))) := by
  unfold conclude Datagram.leftover
  rw [hnone]
  dsimp only
  cases d.truncated with
  | true =>
    simp only [if_true, List.isEmpty_nil, Bool.or_true]
    rfl
  | false =>
    simp only [Bool.false_eq_true, if_false]
    split <;> rfl

theorem settled_conclude (h : d'.Alike d) (hp : p'.settled = p.settled) :
    (conclude ks d' p').settled = (conclude ks d p).settled := by
  obtain ⟨hstate, hmemory, hdone⟩ := Progress.eq_of_settled hp
  cases hfound : p.found.done with
  | none =>
    rw [settled_conclude_of_none hfound, settled_conclude_of_none (hdone.trans hfound), hstate,
      hmemory, h.leftover]
  | some found =>
    obtain ⟨hresult, hended⟩ := onDone_alike hstate found.1 found.2
    unfold conclude
    rw [hdone, hfound, hmemory]
    dsimp only
    generalize onDone p.state found.1 found.2 = ended at hresult hended ⊢
    generalize onDone p'.state found.1 found.2 = ended' at hresult hended ⊢
    obtain ⟨result, c⟩ := ended
    obtain ⟨result', c'⟩ := ended'
    obtain rfl : result' = result := hresult
    cases result' with
    | error e => exact congrArg (Verdict.finished · _ _) hended
    | ok u =>
      -- whether an interruption is reported does not count
      have hreport : ∀ (interrupted : Bool) (c : Conversation),
          (if interrupted then c.report [.dumpInterrupted] else c).settled = c.settled := by
        intro interrupted c
        cases interrupted <;> rfl
      simp only [Verdict.settled, hreport]
      exact congrArg (Verdict.finished · _ _) hended

/-- What a dump makes of one of two datagrams it makes of the other, if both can be recorded. -/
theorem settled_step_alike (h : d'.Alike d) {c c' c₀ c₀' : Conversation}
    (hstate : c'.settled = c.settled) (hrecord : c.record d.data = (.ok (), c₀))
    (hrecord' : c'.record d'.data = (.ok (), c₀')) (memory : β) :
    (step ks d' c' memory).settled = (step ks d c memory).settled := by
  have hkept := Conversation.settled_record c d.data
  have hkept' := Conversation.settled_record c' d'.data
  rw [hrecord] at hkept
  rw [hrecord'] at hkept'
  have hstart : Progress.settled ⟨c₀', memory, {}⟩ = Progress.settled ⟨c₀, memory, {}⟩ :=
    Progress.settled_eq (hkept'.trans (hstate.trans hkept.symm)) rfl rfl
  have hwalks := settled_deliverAll ks h hstart
  rw [step_eq hrecord, step_eq hrecord']
  generalize deliverAll d (Frame.walk d.data) ks ⟨c₀, memory, {}⟩ = w at hwalks ⊢
  generalize deliverAll d' (Frame.walk d'.data) ks ⟨c₀', memory, {}⟩ = w' at hwalks ⊢
  rcases w with q | q | ⟨c, memory, result⟩ <;>
    rcases w' with q' | q' | ⟨c', memory', result'⟩ <;> try contradiction
  · exact settled_conclude h (Walked.through.inj hwalks)
  · exact settled_conclude h (Walked.atDone.inj hwalks)
  · obtain ⟨hover, rfl, rfl⟩ := Walked.over.inj hwalks
    exact congrArg (Verdict.finished · _ _) hover

theorem deliverAll_silent (h : d.Silent) (ks : List (Consumer β)) (p : Progress β) :
    deliverAll d (Frame.walk d.data) ks p = .through p := by
  have hframes : (Frame.walk d.data).frames = [] := List.map_eq_nil_iff.mp h.messages
  have hfault : (if d.truncated then none else (Frame.walk d.data).error?) = none := h.fault
  induction ks with
  | nil => rfl
  | cons k ks ih =>
    rw [deliverAll, hframes, deliver]
    dsimp only
    rw [hfault]
    exact ih

theorem settled_step_silent (h : d.Silent) {c c₀ : Conversation}
    (hrecord : c.record d.data = (.ok (), c₀)) (memory : β) :
    (step ks d c memory).settled = .more c.settled memory := by
  have hkept := Conversation.settled_record c d.data
  rw [hrecord] at hkept
  change c₀.settled = c.settled at hkept
  rw [step_eq hrecord, deliverAll_silent h]
  dsimp only
  rw [settled_conclude_of_none rfl, h.leftover, ← hkept]
  simp

/-! ## All datagrams -/

/-- Every datagram that the dump takes is recorded. -/
def Recorded (ks : List (Consumer β)) : List Datagram → Conversation → β → Prop
  | [], _, _ => True
  | d :: ds, c, memory =>
    (∃ c₀, (c.heard d).record d.data = (.ok (), c₀)) ∧
      ∀ c' memory', (reader ks).step d (c.heard d) memory = .more c' memory' →
        Recorded ks ds c' memory'

theorem recorded_of_unbounded (ks : List (Consumer β)) (ds : List Datagram) {c : Conversation}
    (h : c.Unbounded) (memory : β) : Recorded ks ds c memory := by
  induction ds generalizing c memory with
  | nil => trivial
  | cons d ds ih =>
    have hheard : (c.heard d).Unbounded := h
    obtain ⟨c₀, hrecord, hkept⟩ := hheard.record d.data
    refine ⟨⟨c₀, hrecord⟩, ?_⟩
    intro c' memory' hmore
    change step ks d (c.heard d) memory = .more c' memory' at hmore
    have hbare := bare_step ks d (c.heard d) memory
    rw [hmore, hrecord] at hbare
    exact ih (hkept.of_bare hbare) memory'

/-- Datagrams that a dump cannot tell apart from others leave it with the same result and memory. -/
theorem fold_stands {ds ds' : List Datagram} (h : Stands ds' ds) (e : Error)
    {c c' : Conversation} {memory : β} (hstate : c'.settled = c.settled)
    (hrecorded : Recorded ks ds c memory) (hrecorded' : Recorded ks ds' c' memory) :
    (reader ks).fold e ds' c' memory = (reader ks).fold e ds c memory := by
  induction h generalizing c c' memory with
  | nil => rfl
  | @cons d' d ds' ds halike later ih =>
    obtain ⟨⟨c₀, hrecord⟩, hrest⟩ := hrecorded
    obtain ⟨⟨c₀', hrecord'⟩, hrest'⟩ := hrecorded'
    have hheard : (c'.heard d').settled = (c.heard d).settled := hstate
    have hstep : ((reader ks).step d' (c'.heard d') memory).settled =
        ((reader ks).step d (c.heard d) memory).settled :=
      settled_step_alike halike hheard hrecord hrecord' memory
    obtain ⟨c₁, c₁', memory₁, hmore, hmore', hlater⟩ |
        ⟨c₁, c₁', memory₁, result, hended, hended'⟩ := Verdict.cases_of_settled hstep
    · rw [Reader.fold_of_more hmore, Reader.fold_of_more hmore']
      exact ih hlater (hrest _ _ hmore) (hrest' _ _ hmore')
    · rw [Reader.fold_of_finished hended, Reader.fold_of_finished hended']
  | @skip d ds' ds hsilent later ih =>
    obtain ⟨⟨c₀, hrecord⟩, hrest⟩ := hrecorded
    have hstep : ((reader ks).step d (c.heard d) memory).settled = .more c.settled memory :=
      settled_step_silent hsilent hrecord memory
    obtain ⟨c₁, c₁', memory₁, hgoing, hmore, hlater⟩ | ⟨_, _, _, _, hgoing, -⟩ :=
      Verdict.cases_of_settled (v := .more c memory) hstep
    · obtain ⟨rfl, rfl⟩ := Verdict.more.inj hgoing
      rw [Reader.fold_of_more hmore]
      exact ih (hstate.trans hlater.symm) (hrest _ _ hmore) hrecorded'
    · cases hgoing

/-- A dump over an endpoint comes to what it comes to over another whose arrivals it cannot tell
apart. -/
theorem readDump_stands {σ σ' : Type} [Transport σ] [Transport σ'] {c : Connection σ}
    {c' : Connection σ'} {ds ds' : List Datagram} {failure : Error} {memory : β}
    (hstate : c'.state = c.state) (h : Stands ds' ds)
    (harrivals : Transport.arrivals c.state.config.timeout c.endpoint = (ds, failure))
    (harrivals' : Transport.arrivals c.state.config.timeout c'.endpoint = (ds', failure))
    (hrecorded : Recorded ks ds c.state memory) (hrecorded' : Recorded ks ds' c'.state memory) :
    (Connection.readDump ks memory c').1 = (Connection.readDump ks memory c).1 := by
  have hread : (Connection.readDump ks memory c).1 =
      (reader ks).fold failure ds c.state memory := by
    have hfold := Connection.drain_eq_fold rfl (steady_reader ks) c memory
    rw [harrivals] at hfold
    exact hfold
  have hread' : (Connection.readDump ks memory c').1 =
      (reader ks).fold failure ds' c.state memory := by
    have hfold := Connection.drain_eq_fold rfl (steady_reader ks) c' memory
    rw [hstate, harrivals'] at hfold
    exact hfold
  rw [hread, hread']
  rw [hstate] at hrecorded'
  exact fold_stands h failure rfl hrecorded hrecorded'

end Dump
end Netlink
