import Netlink.Conversation.DumpRequest
import Netlink.Proofs.Draft.Rollback
import Netlink.Proofs.Draft.RoundTrip
import Netlink.Proofs.Endpoint.Outbox

/-! # Asking for a dump

A request for a dump is built before it is numbered. If it cannot be built, nothing is sent and no
number is taken; otherwise it is sent once, and its number is that of the outstanding dump. What is
sent is one whole message, however the dump is asked for: as long as its header can declare its
length, a datagram holds it and nothing else. -/

namespace Netlink

namespace Draft

/-! ## Appending alone -/

/-- The second draft is the first after steps that do nothing but append: none sets a field of the
header, and none closes a nest whose headers have been cut off. -/
inductive Grown (d : Draft) : Draft → Prop
  | built {steps : List Step} (plain : ∀ s ∈ steps, s.isSetting = false)
      (inside : (Work.start d).ClosesInside steps) : Grown d (d.built steps)

variable {d d' : Draft}

theorem built_singleton (d : Draft) (s : Step) :
    d.built [s] = ((Work.start d).step s).2.draft := rfl

theorem grown_of_add {a : Attribute} (h : d.add a = .ok d') : d.Grown d' := by
  have hbuilt : d.built [.append a] = d' := by
    rw [built_singleton, Work.step_append]
    exact congrArg (fun x => ((Work.start d).settled x).2.draft) h
  have hinside : (Work.start d).ClosesInside [.append a] := by
    refine ⟨fun mark hmark => ?_, trivial⟩
    cases hmark
  rw [← hbuilt]
  exact .built (List.forall_mem_singleton.mpr rfl) hinside

theorem Grown.blank (h : d.Grown d') : d'.blank = d.blank := by
  cases h with
  | @built steps plain inside =>
    have hnone : steps.filter Step.isSetting = [] :=
      List.filter_eq_nil_iff.mpr fun s hs => Bool.not_eq_true _ ▸ plain s hs
    have hblank := (Work.start d).blank_run_settings steps
    rw [hnone] at hblank
    exact hblank.symm

theorem Grown.sound (h : d.Grown d') (hsound : d.body.Sound) : d'.body.Sound := by
  cases h with
  | built plain inside =>
    have hstart : (Work.start d).Sound := ⟨hsound, List.forall_mem_nil _⟩
    exact (hstart.run inside).body

/-- Where no nest was open before, none that was there before can be closed. -/
theorem Work.closesFrom_zero (w : Work) (steps : List Step) : w.ClosesFrom 0 steps := by
  induction steps generalizing w with
  | nil => trivial
  | cons s steps ih => exact ⟨fun k _ => Nat.zero_le k, ih _⟩

theorem Grown.extends (h : d.Grown d') : ∃ added, d'.body = d.body.extend added := by
  cases h with
  | @built steps plain inside =>
    have hstart : (Work.start d).Over d.body [] :=
      ⟨⟨[], by simp [Work.start, Buffer.extend]⟩, [], rfl, List.forall_mem_nil _⟩
    exact (hstart.run (Work.closesFrom_zero _ steps)).body

end Draft

namespace Dump

/-- A datagram is nothing but one request for a dump: of this type, without a port, with this number
and the flags of a request for a dump, and beginning with these bytes behind its header. -/
structure Asked (type : UInt16) (seq : UInt32) (front datagram : Bytes) (f : Frame) : Prop where
  only : Frame.walk datagram = ⟨[f], none, []⟩
  whole : f.bytes = datagram
  type : f.header.type = type
  pid : f.header.pid = 0
  seq : f.header.seq = seq
  flags : f.header.flags &&& MessageFlag.dumpRequest = MessageFlag.dumpRequest
  front : front <+: f.payload

/-- With a header that declares the bytes behind it there is such a request, padded or not, just if
their number can be declared. -/
theorem exists_asked_iff {h : Header} {payload front : Bytes}
    (hlength : h.length = UInt32.ofNat (headerSize + payload.length)) (hpid : h.pid = 0)
    (hflags : h.flags &&& MessageFlag.dumpRequest = MessageFlag.dumpRequest)
    (hfront : front <+: payload) :
    (∃ f, Asked h.type h.seq front (h.encode ++ payload) f) ↔
      headerSize + payload.length < UInt32.size := by
  constructor
  · rintro ⟨f, hf⟩
    -- the frame is the whole datagram, and no frame is longer than its header can declare
    have hmem : f ∈ (Frame.walkFrom 0 (h.encode ++ payload)).frames := by
      rw [← Frame.walk, hf.only]
      exact List.mem_singleton_self f
    have hdeclared := Frame.length_of_mem_walkFrom hmem
    rw [hf.whole, List.length_append, h.length_encode] at hdeclared
    rw [hdeclared]
    exact f.header.length.toNat_lt
  · intro hfits
    let p := Packet.fitting h payload hfits
    have hheader : p.header = h := by
      change { h with length := UInt32.ofNat (headerSize + payload.length) } = h
      rw [← hlength]
    have hbytes : p.bytes = h.encode ++ payload := by
      rw [Packet.bytes, hheader]
      rfl
    have hwalk := Frame.walk_bytes p
    rw [hheader, hbytes] at hwalk
    refine ⟨_, hwalk, rfl, rfl, hpid, rfl, hflags, ?_⟩
    rw [Frame.payload, List.drop_left' h.length_encode]
    exact hfront

theorem and_dumpRequest (flags : UInt16) :
    (flags ||| MessageFlag.dumpRequest) &&& MessageFlag.dumpRequest = MessageFlag.dumpRequest := by
  refine UInt16.eq_of_toBitVec_eq (BitVec.eq_of_getLsbD_eq fun i _ => ?_)
  simp only [UInt16.toBitVec_and, UInt16.toBitVec_or, BitVec.getLsbD_and, BitVec.getLsbD_or]
  cases flags.toBitVec.getLsbD i <;> cases MessageFlag.dumpRequest.toBitVec.getLsbD i <;> rfl

/-- A draft with the flags of a request for a dump is one with any number, if it is not too long. -/
theorem exists_asked_encode_iff {d : Draft} {front : Bytes} (hbase : d.body.base = headerSize)
    (hflags : d.flags &&& MessageFlag.dumpRequest = MessageFlag.dumpRequest)
    (hfront : front <+: d.body.bytes) (seq : UInt32) :
    (∃ f, Asked d.type seq front ((d.setPid 0).setSeq seq).encode f) ↔
      d.encode.length < UInt32.size := by
  have hsize : d.size = headerSize + d.body.bytes.length := by
    rw [Draft.size, Draft.Buffer.size, hbase]
  rw [Draft.length_encode]
  exact exists_asked_iff (h := ((d.setPid 0).setSeq seq).header) (congrArg UInt32.ofNat hsize) rfl
    hflags hfront

/-! ## Building -/

/-- A request for a dump with these bytes behind its header. -/
def written (type : UInt16) (bs : Bytes) : Draft :=
  (Draft.new type MessageFlag.dumpRequest).extend bs

theorem written_append (type : UInt16) (xs ys : Bytes) :
    written type (xs ++ ys) = (written type xs).extend ys :=
  (Draft.extend_extend ..).symm

theorem addRaw_new (type : UInt16) {fixed : Bytes}
    (hroom : headerSize + (Wire.padded fixed).length ≤ Draft.defaultCapacity) :
    (Draft.new type MessageFlag.dumpRequest).addRaw fixed =
      .ok (written type (Wire.padded fixed)) :=
  (Draft.Fresh.new type _).addRaw hroom

theorem plainRequest_eq (family : UInt8) (type : UInt16) :
    plainRequest family type = .ok (written type (Wire.padded [family])) := by
  refine addRaw_new type ?_
  rw [Wire.length_padded]
  exact (by decide : headerSize + Wire.align4 1 ≤ Draft.defaultCapacity)

theorem statisticsRequest_eq (family : UInt8) (type : UInt16) (mask : UInt32) :
    statisticsRequest family type mask =
      .ok (written type (Wire.padded (StatisticsRequest.encode ⟨family, mask⟩))) := by
  refine addRaw_new type ?_
  rw [Wire.length_padded]
  exact (by decide : headerSize + Wire.align4 12 ≤ Draft.defaultCapacity)

theorem length_interfaceInfo (family : UInt8) :
    (interfaceInfo family).length = InterfaceInfo.size :=
  InterfaceInfo.length_encode _

theorem padded_interfaceInfo (family : UInt8) :
    Wire.padded (interfaceInfo family) = interfaceInfo family :=
  Wire.padded_of_mod (by rw [length_interfaceInfo]; rfl)

theorem linkRequest_eq (family : UInt8) (type : UInt16) (details : UInt32) :
    let a := Attribute.ofU32 Link.detailType details
    linkRequest family type details = .ok (written type (interfaceInfo family ++ a.encode)) := by
  intro a
  have hinfo := length_interfaceInfo family
  have haligned : (written type (interfaceInfo family)).body.Aligned :=
    (Draft.Fresh.new type _).aligned.extend (by rw [hinfo]; rfl)
  have hroom : ((written type (interfaceInfo family)).extend a.encode).size ≤
      Draft.defaultCapacity := by
    rw [Draft.size_extend, written, Draft.size_extend, hinfo, Attribute.length_encode]
    exact (by decide : headerSize + InterfaceInfo.size + Wire.align4 8 ≤ Draft.defaultCapacity)
  have hfixed :
      headerSize + (Wire.padded (interfaceInfo family)).length ≤ Draft.defaultCapacity := by
    rw [padded_interfaceInfo, hinfo]
    decide
  rw [linkRequest, addRaw_new type hfixed, padded_interfaceInfo, written_append]
  exact Draft.add_of_room haligned (by decide : 8 < UInt16.size) hroom

/-- The request that a caller completes, as it is handed over. -/
def opening (family : UInt8) (type : UInt16) : Draft :=
  (Draft.withCapacity type MessageFlag.dumpRequest
    (headerSize + InterfaceInfo.size + criteriaRoom)).extend (interfaceInfo family)

theorem addRaw_opening (family : UInt8) (type : UInt16) :
    (Draft.withCapacity type MessageFlag.dumpRequest
      (headerSize + InterfaceInfo.size + criteriaRoom)).addRaw (interfaceInfo family) =
      .ok (opening family type) := by
  have hroom : headerSize + (Wire.padded (interfaceInfo family)).length ≤
      max (headerSize + InterfaceInfo.size + criteriaRoom) headerSize := by
    rw [padded_interfaceInfo, length_interfaceInfo]
    decide
  rw [(Draft.Fresh.withCapacity type _ _).addRaw hroom, padded_interfaceInfo]
  rfl

theorem filledRequest_eq (family : UInt8) (type : UInt16) (fill : Draft → Except Error Draft) :
    filledRequest family type fill = fill (opening family type) := by
  rw [filledRequest, addRaw_opening]
  rfl

theorem sound_opening (family : UInt8) (type : UInt16) : (opening family type).body.Sound :=
  Draft.sound_addRaw (Draft.Work.sound_start (.withCapacity ..)).body
    (addRaw_opening family type)

end Dump

namespace Connection

open Dump (Asked)

variable {σ : Type} [Transport σ]

/-- The act sends these pieces and nothing else, comes to what becomes of that, and has taken the
next number for itself and for the outstanding dump. -/
structure Asks (act : (τ : Type) → [Transport τ] → Action τ Unit) (c : Connection σ)
    (pieces : List Bytes) : Prop where
  once : Sends act c [pieces]
  outcome : (act σ c).1 = (Transport.send pieces c.endpoint).1
  seq : (act σ c).2.state.seq = c.state.seq + 1
  dumpSeq : (act σ c).2.state.dumpSeq = c.state.seq + 1

theorem asks_sendDump (d : Draft) (c : Connection σ) :
    Asks (fun _ _ => sendDump d) c [((d.setPid 0).setSeq (c.state.seq + 1)).encode] :=
  ⟨rfl, rfl, rfl, rfl⟩

/-- What the act sends is one message that asks for a dump of this type and begins with these bytes
behind its header. -/
def AsksWhole (act : (τ : Type) → [Transport τ] → Action τ Unit) (c : Connection σ) (type : UInt16)
    (front : Bytes) : Prop :=
  ∃ pieces f, Asks act c pieces ∧ Asked type (c.state.seq + 1) front pieces.flatten f

theorem asksWhole_of_built {built : Except Error Draft} {d : Draft} {front : Bytes}
    (hbuilt : built = .ok d) (hbase : d.body.base = headerSize)
    (hflags : d.flags &&& MessageFlag.dumpRequest = MessageFlag.dumpRequest)
    (hfits : d.encode.length < UInt32.size) (hfront : front <+: d.body.bytes) (c : Connection σ) :
    AsksWhole (fun _ _ => settling built >>= sendDump) c d.type front := by
  obtain ⟨f, hf⟩ := (Dump.exists_asked_encode_iff hbase hflags hfront (c.state.seq + 1)).mpr hfits
  rw [hbuilt]
  refine ⟨_, f, asks_sendDump d c, ?_⟩
  rwa [List.flatten_singleton]

theorem asksWhole_of_written {built : Except Error Draft} {type : UInt16} {bs front : Bytes}
    (hbuilt : built = .ok (Dump.written type bs)) (hfits : headerSize + bs.length < UInt32.size)
    (hfront : front <+: bs) (c : Connection σ) :
    AsksWhole (fun _ _ => settling built >>= sendDump) c type front := by
  refine asksWhole_of_built hbuilt rfl UInt16.and_self ?_ hfront c
  rwa [Draft.length_encode]

/-- A request that a caller completed by appending is sent as one message. -/
theorem asksWhole_of_grown {built : Except Error Draft} {family : UInt8} {type : UInt16} {d : Draft}
    (hbuilt : built = .ok d) (hgrown : (Dump.opening family type).Grown d) (c : Connection σ) :
    AsksWhole (fun _ _ => settling built >>= sendDump) c type (Dump.interfaceInfo family) := by
  obtain ⟨htype, hflags, -, -, hbody⟩ := Draft.mk.inj hgrown.blank
  have hsound := hgrown.sound (Dump.sound_opening family type)
  obtain ⟨added, hextended⟩ := hgrown.extends
  -- the room that is left for the caller bounds the length, whatever the caller appended
  have hfits : d.encode.length < UInt32.size := by
    have hcapacity : d.body.capacity =
        max (headerSize + InterfaceInfo.size + Dump.criteriaRoom) headerSize :=
      (Draft.Buffer.mk.inj hbody).2.2
    have hroom : d.body.base + d.body.bytes.length ≤ d.body.capacity := hsound.room
    rw [hsound.base, hcapacity] at hroom
    rw [Draft.length_encode]
    exact Nat.lt_of_le_of_lt hroom (by decide)
  have hfront : Dump.interfaceInfo family <+: d.body.bytes := by
    rw [hextended]
    exact List.prefix_append ..
  have hasked : d.flags &&& MessageFlag.dumpRequest = MessageFlag.dumpRequest := by
    rw [hflags]
    exact UInt16.and_self
  have htyped : d.type = type := htype
  rw [← htyped]
  exact asksWhole_of_built hbuilt hsound.base hasked hfits hfront c

/-- **Asking for a dump sends a whole request or nothing.** A dump is asked for with a family alone,
for interfaces with certain details or with their virtual functions, for statistics, with a fixed
part of the caller's own, by a request that was built in any way, or by one for interfaces that the
caller completes by appending. Only the last can fail to be built, just if the caller fails; then
nothing is sent and nothing changes. In all other cases one datagram is sent, whatever becomes of
it, and its number, the one behind the counter, is that of the outstanding dump. The datagram is
nothing but one request of the type given, with this number, without a port and with the flags of a
request for a dump, and begins with the fixed part or the bytes given; where these are the caller's
own, just if a header can declare the length. -/
theorem dump_asked_whole (c : Connection σ) (family : UInt8) (type : UInt16) :
    let info := Dump.interfaceInfo family
    AsksWhole (fun _ _ => requestDump family type) c type [family] ∧
    (∀ details, AsksWhole (fun _ _ => requestLinks family type details) c type info) ∧
    AsksWhole (fun _ _ => requestAllLinks family type) c type info ∧
    (∀ mask, AsksWhole (fun _ _ => requestStatistics family type mask) c type
      (StatisticsRequest.encode ⟨family, mask⟩)) ∧
    (∀ fixed, ∃ pieces, Asks (fun _ _ => requestDumpWith type fixed) c pieces ∧
      ((∃ f, Asked type (c.state.seq + 1) fixed pieces.flatten f) ↔
        headerSize + fixed.length < UInt32.size)) ∧
    (∀ d₀ steps, Draft.Fresh d₀ →
      let d := d₀.built steps
      ∃ pieces, Asks (fun _ _ => requestDumpBy d) c pieces ∧
        ((∃ f, Asked d₀.type (c.state.seq + 1) d.body.bytes pieces.flatten f) ↔
          d.encode.length < UInt32.size)) ∧
    ∀ fill : Draft → Except Error Draft, (∀ d d', fill d = .ok d' → d.Grown d') →
      (∀ e, fill (Dump.opening family type) = .error e →
        Sends (fun _ _ => requestDumpFilling family type fill) c [] ∧
          requestDumpFilling family type fill c = (.error e, c)) ∧
      ∀ d, fill (Dump.opening family type) = .ok d →
        AsksWhole (fun _ _ => requestDumpFilling family type fill) c type info := by
  intro info
  have hlinks (details : UInt32) :
      AsksWhole (fun _ _ => requestLinks family type details) c type info := by
    refine asksWhole_of_written (Dump.linkRequest_eq family type details) ?_
      (List.prefix_append ..) c
    rw [List.length_append, Dump.length_interfaceInfo, Attribute.length_encode]
    exact (by decide : headerSize + (InterfaceInfo.size + Wire.align4 8) < UInt32.size)
  refine ⟨?_, hlinks, hlinks _, fun mask => ?_, fun fixed => ?_, fun d₀ steps hfresh => ?_,
    fun fill hfill => ⟨fun e he => ?_, fun d hd => ?_⟩⟩
  · refine asksWhole_of_written (Dump.plainRequest_eq family type) ?_ (List.prefix_append ..) c
    rw [Wire.length_padded]
    exact (by decide : headerSize + Wire.align4 1 < UInt32.size)
  · refine asksWhole_of_written (Dump.statisticsRequest_eq family type mask) ?_
      (List.prefix_append ..) c
    rw [Wire.length_padded]
    exact (by decide : headerSize + Wire.align4 12 < UInt32.size)
  · let h : Header := ⟨UInt32.ofNat (headerSize + fixed.length), type, MessageFlag.dumpRequest,
      c.state.seq + 1, 0⟩
    refine ⟨[h.encode, fixed], ⟨rfl, rfl, rfl, rfl⟩, ?_⟩
    rw [List.flatten_cons, List.flatten_singleton]
    exact Dump.exists_asked_iff (h := h) rfl rfl UInt16.and_self (List.prefix_refl fixed)
  · intro d
    obtain ⟨htype, -, -, -, hbody⟩ := Draft.mk.inj (Draft.blank_run (Draft.Work.start d₀) steps)
    have hbase : d.body.base = headerSize := (Draft.Buffer.mk.inj hbody).1.trans hfresh.base
    have htyped : d.type = d₀.type := htype
    have hlength : (d.addFlags MessageFlag.dumpRequest).encode.length = d.encode.length := by
      rw [Draft.length_encode, Draft.length_encode]
      rfl
    refine ⟨_, asks_sendDump (d.addFlags MessageFlag.dumpRequest) c, ?_⟩
    rw [List.flatten_singleton, ← htyped, ← hlength]
    exact Dump.exists_asked_encode_iff (d := d.addFlags MessageFlag.dumpRequest) hbase
      (Dump.and_dumpRequest d.flags) (List.prefix_refl d.body.bytes) (c.state.seq + 1)
  · unfold requestDumpFilling
    rw [Dump.filledRequest_eq, he]
    exact ⟨rfl, rfl⟩
  · have hbuilt := (Dump.filledRequest_eq family type fill).trans hd
    exact asksWhole_of_grown hbuilt (hfill _ d hd) c

/-- The number comes around. One caller adds a criterion, and another gives up. -/
theorem dump_asked_whole_sample :
    let taken (d : Draft) := d.add ⟨29, [1, 0, 0, 0]⟩
    let quitting (_ : Draft) : Except Error Draft := .error (.invalidMessage (.stated "too many"))
    let c : Connection Script :=
      { sampleExchange with state := { sampleExchange.state with seq := 0xffffffff } }
    let d := (Draft.new 26 0).built [.appendRaw [2], .setPid 9]
    (∀ d d', taken d = .ok d' → d.Grown d') ∧ (∀ d d', quitting d = .ok d' → d.Grown d') ∧
      Draft.Fresh (Draft.new 26 0) ∧
      AsksWhole (fun _ _ => requestDumpFilling 17 18 taken) c 18 (Dump.interfaceInfo 17) ∧
      Sends (fun _ _ => requestDumpFilling 17 18 quitting) c [] ∧
      ∃ pieces f, Asks (fun _ _ => requestDumpBy d) c pieces ∧
        Asked 26 0 [2, 0, 0, 0] pieces.flatten f := by
  intro taken quitting c d
  have htaken : ∀ d d', taken d = .ok d' → d.Grown d' := fun _ _ => Draft.grown_of_add
  have hquitting : ∀ d d', quitting d = .ok d' → d.Grown d' := fun _ _ h => by cases h
  have hfresh : Draft.Fresh (Draft.new 26 0) := .new 26 0
  obtain ⟨-, -, -, -, -, hbuilt, hfilled⟩ := dump_asked_whole c 17 18
  obtain ⟨pieces, hasks, hasked⟩ := hbuilt (Draft.new 26 0) [.appendRaw [2], .setPid 9] hfresh
  have hnumber : c.state.seq + 1 = 0 := by decide
  have hbytes : d.body.bytes = [2, 0, 0, 0] := by decide
  obtain ⟨f, hf⟩ := hasked.mpr (by decide)
  rw [hnumber, hbytes] at hf
  obtain ⟨hnothing, -⟩ := (hfilled quitting hquitting).1 _ rfl
  exact ⟨htaken, hquitting, hfresh, (hfilled taken htaken).2 _ rfl, hnothing, pieces, f, hasks, hf⟩

/-- A caller's message with 2 ^ 32 bytes behind its header is sent all the same, and what is sent is
not one message. -/
theorem overlong_not_asked :
    let d := (Draft.withCapacity 26 0 (2 * UInt32.size)).built
      [.appendRaw (Wire.zeros UInt32.size)]
    ∃ pieces, Asks (fun _ _ => requestDumpBy d) sampleExchange pieces ∧
      pieces.flatten.length = headerSize + UInt32.size ∧
      ¬ ∃ f, Frame.walk pieces.flatten = ⟨[f], none, []⟩ := by
  intro d
  have hbuilt : d = (Draft.withCapacity 26 0 (2 * UInt32.size)).extend (Wire.zeros UInt32.size) := by
    simp only [d]
    rw [Draft.built_singleton, Draft.Work.step_appendRaw, Draft.Work.start, Draft.addRaw_overlong]
    rfl
  let sent := ((d.addFlags MessageFlag.dumpRequest).setPid 0).setSeq
    (sampleExchange.state.seq + 1)
  have hzeros : sent.body.bytes = Wire.zeros UInt32.size := by
    simp only [sent, hbuilt]
    rfl
  have hbase : sent.body.base = headerSize := by
    simp only [sent, hbuilt]
    rfl
  refine ⟨_, asks_sendDump (d.addFlags MessageFlag.dumpRequest) sampleExchange, ?_, ?_⟩
  · rw [List.flatten_singleton, Draft.length_encode, hzeros, Wire.length_zeros]
  · rintro ⟨f, hf⟩
    rw [List.flatten_singleton, Draft.walk_overlong hbase hzeros] at hf
    cases congrArg Frame.Walk.fault hf

end Connection
end Netlink
