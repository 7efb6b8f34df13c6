import Netlink.Proofs.Draft.Invariant
import Netlink.Proofs.Draft.RoundTrip
import Netlink.Proofs.Endpoint.Outbox

/-! # Requests in one datagram

Requests are sent one behind another with nothing between them. Whatever was done to a draft, its
bytes end on the grid and its header declares their number; so the walk over the datagram finds the
requests again, one for one, each with the number that it was given. -/

namespace Netlink

namespace Draft

/-- The draft was made with a capacity that a header can declare and put through any steps, failing
ones among them, of which none closed a nest whose headers had been cut off. -/
inductive Made : Draft → Prop
  | built {d₀ : Draft} {steps : List Step} (fresh : Fresh d₀) (capacity : d₀.capacity < UInt32.size)
      (inside : (Work.start d₀).ClosesInside steps) : Made (d₀.built steps)

/-- The body of the draft is that of a message, and its header can declare it. -/
structure Sendable (d : Draft) : Prop where
  sound : d.body.Sound
  fits : d.encode.length < UInt32.size

theorem Made.sendable {d : Draft} (h : d.Made) : d.Sendable := by
  cases h with
  | @built d₀ steps fresh capacity inside =>
    have hsound : (d₀.built steps).body.Sound :=
      (Work.Sound.run (Work.sound_start fresh) inside).body
    obtain ⟨-, -, -, -, hbody⟩ := Draft.mk.inj (blank_run (Work.start d₀) steps)
    have hkept : (d₀.built steps).capacity = d₀.capacity := (Buffer.mk.inj hbody).2.2
    refine ⟨hsound, ?_⟩
    have hroom : headerSize + (d₀.built steps).body.bytes.length ≤ (d₀.built steps).capacity := by
      rw [← hsound.base]
      exact hsound.room
    rw [length_encode]
    omega

theorem Sendable.of_body {d d' : Draft} (h : d.Sendable) (hbody : d'.body = d.body) :
    d'.Sendable := by
  refine ⟨hbody ▸ h.sound, ?_⟩
  have hfits := h.fits
  rw [length_encode] at hfits ⊢
  rw [hbody]
  exact hfits

/-- Drafts that can be sent are packets without padding. -/
theorem exists_packets {ds : List Draft} (h : ∀ d ∈ ds, d.Sendable) :
    ∃ ps : List Packet, (ds.map encode).flatten = Packet.records ps ∧
      ps.map (fun p => (p.header, p.payload)) = ds.map fun d => (d.header, d.body.bytes) := by
  induction ds with
  | nil => exact ⟨[], rfl, rfl⟩
  | cons d ds ih =>
    obtain ⟨ps, hrecords, hps⟩ := ih fun d' hd' => h d' (List.mem_cons_of_mem _ hd')
    obtain ⟨hsound, hfits⟩ := h d List.mem_cons_self
    obtain ⟨p, hheader, hpayload, hpadding⟩ := exists_packet hsound.base hsound.aligned hfits
    refine ⟨p :: ps, ?_, ?_⟩
    · rw [List.map_cons, List.flatten_cons, hrecords, Packet.records_cons, Packet.record,
        Packet.bytes, hheader, hpayload, hpadding, List.append_nil, encode]
    · rw [List.map_cons, List.map_cons, hps, hheader, hpayload]

end Draft

namespace Exchange

/-- A request as it is sent with the number `seq`. -/
def numbered (wantsAnswer : Bool) (seq : UInt32) (d : Draft) : Draft :=
  if wantsAnswer then d.setSeq seq else (d.setSeq seq).addFlags MessageFlag.ack

theorem body_numbered (wantsAnswer : Bool) (seq : UInt32) (d : Draft) :
    (numbered wantsAnswer seq d).body = d.body := by
  cases wantsAnswer <;> rfl

theorem stamp_cons (wantsAnswer : Bool) (d : Draft) (ds : List Draft) (c : Conversation) :
    (stamp wantsAnswer (d :: ds) c).1 =
      numbered wantsAnswer (c.seq + 1) d :: (stamp wantsAnswer ds c.advance).1 := rfl

/-- The requests are numbered one after another from the counter on. -/
theorem getElem?_stamp (wantsAnswer : Bool) (requests : List Draft) (c : Conversation) (i : Nat) :
    (stamp wantsAnswer requests c).1[i]? =
      requests[i]?.map (numbered wantsAnswer (c.seq + 1 + UInt32.ofNat i)) := by
  induction requests generalizing c i with
  | nil => rfl
  | cons d ds ih =>
    rw [stamp_cons]
    cases i with
    | zero =>
      have hzero : c.seq + 1 + UInt32.ofNat 0 = c.seq + 1 := UInt32.add_zero _
      rw [hzero]
      rfl
    | succ i =>
      have hnext : c.advance.seq + 1 + UInt32.ofNat i = c.seq + 1 + UInt32.ofNat (i + 1) := by
        rw [UInt32.ofNat_add, UInt32.add_comm (UInt32.ofNat i), ← UInt32.add_assoc]
        rfl
      rw [List.getElem?_cons_succ, List.getElem?_cons_succ, ih, hnext]

theorem length_stamp (wantsAnswer : Bool) (requests : List Draft) (c : Conversation) :
    (stamp wantsAnswer requests c).1.length = requests.length := by
  have hnumbers := (stamp_eq wantsAnswer requests c).1
  rw [← length_numbers c.seq requests.length, ← hnumbers, List.length_map]

theorem sendable_stamp {requests : List Draft} (h : ∀ d ∈ requests, d.Sendable)
    (wantsAnswer : Bool) (c : Conversation) :
    ∀ d ∈ (stamp wantsAnswer requests c).1, d.Sendable := by
  intro d' hd'
  obtain ⟨i, hi⟩ := List.mem_iff_getElem?.mp hd'
  rw [getElem?_stamp] at hi
  obtain ⟨d, hd, rfl⟩ := Option.map_eq_some_iff.mp hi
  exact (h d (List.mem_of_getElem? hd)).of_body (body_numbered ..)

/-- The datagram is a run of messages, one for each request: the request as it was, with the next
number behind `seq` and, unless an answer is wanted, a flag that asks for an acknowledgement. -/
structure Framed (wantsAnswer : Bool) (requests : List Draft) (seq : UInt32) (datagram : Bytes) :
    Prop where
  count : (Frame.walk datagram).frames.length = requests.length
  nofault : (Frame.walk datagram).fault = none
  nothing : (Frame.walk datagram).rest = []
  frame : ∀ (i : Nat) (d : Draft), requests[i]? = some d →
    ∃ f : Frame, (Frame.walk datagram).frames[i]? = some f ∧
      f.header = { d.header with
        seq := seq + 1 + UInt32.ofNat i
        flags := if wantsAnswer then d.flags else d.flags ||| MessageFlag.ack } ∧
      f.payload = d.body.bytes

theorem framed_stamp {requests : List Draft} (h : ∀ d ∈ requests, d.Sendable)
    (wantsAnswer : Bool) (c : Conversation) :
    Framed wantsAnswer requests c.seq
      ((stamp wantsAnswer requests c).1.map Draft.encode).flatten := by
  obtain ⟨ps, hrecords, hps⟩ := Draft.exists_packets (sendable_stamp h wantsAnswer c)
  obtain ⟨hmessages, herror, hnothing⟩ := Frame.walk_of_records hrecords 0
  have hcount : ps.length = requests.length := by
    rw [← length_stamp wantsAnswer requests c]
    simpa using congrArg List.length hps
  refine ⟨?_, ?_, hnothing, fun i d hd => ?_⟩
  · rw [← hcount]
    simpa using congrArg List.length hmessages
  · simpa [Frame.Walk.error?] using herror
  · -- the request is found again as the packet at its place, and the packet as the frame
    have hrequest := congrArg (fun pairs => pairs[i]?) hps
    simp only [List.getElem?_map, getElem?_stamp, hd, Option.map_some] at hrequest
    obtain ⟨p, hp, hpair⟩ := Option.map_eq_some_iff.mp hrequest
    obtain ⟨hheader, hpayload⟩ := Prod.mk.inj hpair
    have hframe := congrArg (fun ms => ms[i]?) hmessages
    simp only [List.getElem?_map, hp, Option.map_some] at hframe
    obtain ⟨f, hf, hmessage⟩ := Option.map_eq_some_iff.mp hframe
    obtain ⟨-, hfheader, hfbytes⟩ := Message.mk.inj hmessage
    refine ⟨f, hf, ?_, ?_⟩
    · rw [hfheader, hheader]
      cases wantsAnswer <;> rfl
    · rw [Frame.payload, hfbytes, Packet.bytes, List.drop_left' p.header.length_encode, hpayload,
        body_numbered]

end Exchange

namespace Connection

open Exchange (stamp Framed)

variable {σ : Type} [Transport σ]

/-- **A batch goes out as one datagram.** Requests that were built in any way are sent once,
whatever becomes of them: the walk over what is sent finds as many messages as there are requests
and nothing else, and each is its request with the next number and asking for an acknowledgement. A
single request that wants an answer goes out in the same way and asks for none. Without requests
nothing is sent and nothing changes. -/
theorem batch_framed {requests : List Draft} (hmade : ∀ d ∈ requests, d.Made) (c : Connection σ) :
    let start := c.noting []
    (requests ≠ [] → ∃ pieces,
      requestAll requests start =
        ((requestAll requests c).1, (requestAll requests c).2.noting [pieces]) ∧
      Framed false requests c.state.seq pieces.flatten) ∧
    (∀ d ∈ requests, ∃ pieces,
      ask d start = ((ask d c).1, (ask d c).2.noting [pieces]) ∧
      Framed true [d] c.state.seq pieces.flatten) ∧
    requestAll [] start = (.error (.invalidMessage .emptyBatch), start) := by
  intro start
  have hsendable : ∀ d ∈ requests, d.Sendable := fun d hd => (hmade d hd).sendable
  refine ⟨?_, ?_, rfl⟩
  · intro hsome
    exact ⟨_, requestAll_noting hsome c [], Exchange.framed_stamp hsendable false c.state⟩
  · intro d hd
    have hone : ∀ d' ∈ [d], d'.Sendable := by
      intro d' hd'
      rw [List.mem_singleton.mp hd']
      exact hsendable d hd
    exact ⟨_, ask_noting d c [], Exchange.framed_stamp hone true c.state⟩

/-- A request that took a fixed part of one byte and a nest, and one that is a bare header. -/
def sampleBatch : List Draft :=
  [(Draft.withCapacity 16 1 64).built
      [.appendRaw [1], .openNest 2, .append ⟨3, [4, 5]⟩, .close none, .setPid 9],
    (Draft.new 18 1).built []]

/-- The counter comes around between the two requests. -/
theorem batch_framed_sample :
    (∀ d ∈ sampleBatch, d.Made) ∧ sampleBatch ≠ [] ∧
      ∃ pieces, (requestAll sampleBatch (sampleExchange.noting [])).2.endpoint.sends = [pieces] ∧
        ∃ first second, (Frame.walk pieces.flatten).frames[0]? = some first ∧
          (Frame.walk pieces.flatten).frames[1]? = some second ∧
          first.header = ⟨32, 16, 5, 0xffffffff, 9⟩ ∧ second.header = ⟨16, 18, 5, 0, 0⟩ := by
  have hmade : ∀ d ∈ sampleBatch, d.Made := by
    intro d hd
    simp only [sampleBatch, List.mem_cons, List.not_mem_nil, or_false] at hd
    rcases hd with rfl | rfl
    · exact .built (.withCapacity 16 1 64) (by decide) (by decide)
    · exact .built (.new 18 1) (by decide) trivial
  have hsome : sampleBatch ≠ [] := List.cons_ne_nil _ _
  obtain ⟨hsends, -⟩ := batch_framed hmade sampleExchange
  obtain ⟨pieces, hrun, hframed⟩ := hsends hsome
  obtain ⟨first, hfirst, hheader, -⟩ := hframed.frame 0 _ rfl
  obtain ⟨second, hsecond, hheader', -⟩ := hframed.frame 1 _ rfl
  refine ⟨hmade, hsome, pieces, ?_, first, second, hfirst, hsecond, ?_, ?_⟩
  · rw [hrun]
    rfl
  · rw [hheader]
    decide
  · rw [hheader']
    decide

end Connection
end Netlink
