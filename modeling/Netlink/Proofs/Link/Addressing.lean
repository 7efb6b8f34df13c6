import Netlink.Proofs.Attribute.Index
import Netlink.Proofs.Conversation.Batch
import Netlink.Proofs.Conversation.Failing
import Netlink.Proofs.Draft.Appending
import Netlink.Proofs.Wire.Text

/-! # Which interface a request is about

A request about an interface leaves its number open and carries its name. It is sent exactly if it
fits a message, as a datagram of its own, and reads back as what was asked for. That the kernel
knows no such device is told as there being no interface of the name; every other failure stays what
it is. -/

namespace Netlink

namespace InterfaceInfo

theorem ofBytes_encode (i : InterfaceInfo) : ofBytes i.encode = i := by
  have hlast : Wire.word32 (Wire.le32 i.change) = i.change := by
    simpa using Wire.word32_le32_append i.change []
  simp only [ofBytes, encode, List.append_assoc, List.cons_append, List.nil_append, List.drop_succ_cons,
    List.drop_zero, Wire.word16_le16_append, Wire.drop_le16_append, Wire.drop_le32_append,
    Wire.word32_le32_append, hlast]
  rfl

theorem decode_encode_append (i : InterfaceInfo) (bs : Bytes) : decode (i.encode ++ bs) = .ok i := by
  rw [decode, Wire.split?_append i.length_encode]
  exact congrArg Except.ok i.ofBytes_encode

end InterfaceInfo

namespace Draft

theorem room_of_appended {d d' : Draft} {as : List Attribute} (ha : d.body.Aligned)
    (hroom : d.size ≤ d.capacity) (h : as.foldlM add d = .ok d') : d'.size ≤ d'.capacity := by
  induction as generalizing d with
  | nil => rwa [← Except.ok.inj h]
  | cons a as ih =>
    rw [List.foldlM_cons] at h
    obtain ⟨d₁, happend, hrest⟩ := bind_eq_ok.mp h
    have hroom₁ := size_of_add ha happend
    obtain ⟨rfl, -⟩ := add_eq_ok ha happend
    exact ih (ha.extend_attribute a) hroom₁ hrest

end Draft

namespace Link

open Attribute (encodeAll findFirst walk)

variable {type : UInt16} {info : InterfaceInfo} {as : List Attribute} {name : String}

/-! ## Building -/

/-- A request with the fixed part of a message about an interface, and attributes behind it. -/
def requestWith (type : UInt16) (info : InterfaceInfo) (as : List Attribute) : Except Error Draft := do
  let d ← (Draft.new type MessageFlag.request).addRaw info.encode
  as.foldlM Draft.add d

/-- Bytes that such a request takes. -/
def requestSize (as : List Attribute) : Nat :=
  headerSize + InterfaceInfo.size + (encodeAll as).length

/-- The request when all of it has been written. -/
def written (type : UInt16) (info : InterfaceInfo) (as : List Attribute) : Draft :=
  (Draft.new type MessageFlag.request).extend (info.encode ++ encodeAll as)

theorem namedRequest_eq (type : UInt16) (info : InterfaceInfo) (name : String) :
    namedRequest type info name = requestWith type info [.ofText nameType name] := by
  simp only [namedRequest, requestWith, List.foldlM_cons, List.foldlM_nil, bind_pure]

theorem mtuRequest_eq (name : String) (mtu : UInt32) :
    mtuRequest name mtu =
      requestWith MessageType.setLink {} [.ofText nameType name, .ofU32 mtuType mtu] := by
  simp only [mtuRequest, namedRequest, requestWith, List.foldlM_cons, List.foldlM_nil, bind_pure,
    bind_assoc]

theorem getRequest_eq (name : String) :
    getRequest name =
      requestWith MessageType.getLink {}
        [.ofText nameType name, .ofU32 detailType virtualFunctions] := by
  simp only [getRequest, namedRequest, requestWith, List.foldlM_cons, List.foldlM_nil, bind_pure,
    bind_assoc]

theorem size_written (type : UInt16) (info : InterfaceInfo) (as : List Attribute) :
    (written type info as).size = requestSize as := by
  rw [written, Draft.size_extend, List.length_append, info.length_encode, requestSize,
    Nat.add_assoc]
  rfl

theorem aligned_written (type : UInt16) (info : InterfaceInfo) (as : List Attribute) :
    (written type info as).body.Aligned := by
  have hrecords := Attribute.length_encodeAll_mod as
  have hinfo := info.length_encode
  change (info.encode ++ encodeAll as).length % 4 = 0
  rw [List.length_append, hinfo, InterfaceInfo.size]
  omega

/-- The fixed part is written behind the header, and the attributes are still to come. -/
theorem addRaw_info (type : UInt16) (info : InterfaceInfo) :
    (Draft.new type MessageFlag.request).addRaw info.encode = .ok (written type info []) := by
  have hfresh : Draft.Fresh (Draft.new type MessageFlag.request) := .new type _
  have hpadded : Wire.padded info.encode = info.encode :=
    Wire.padded_of_mod (by rw [info.length_encode]; rfl)
  have hroom : headerSize + (Wire.padded info.encode).length ≤ Draft.defaultCapacity := by
    rw [hpadded, info.length_encode]
    decide
  rw [hfresh.addRaw hroom, hpadded, written, Attribute.encodeAll, List.flatMap_nil,
    List.append_nil]

/-- What fits a message can be declared. -/
theorem declarable_of_fits (h : requestSize as ≤ Draft.defaultCapacity) :
    ∀ a ∈ as, a.Declarable := by
  intro a ha
  have hlength : a.encode.length ≤ (encodeAll as).length :=
    (List.sublist_flatten_of_mem (List.mem_map_of_mem ha)).length_le
  have hpadding := Wire.le_align4 a.recordSize
  rw [Attribute.length_encode] at hlength
  simp only [requestSize, Draft.defaultCapacity] at h
  simp only [Attribute.Declarable, UInt16.size]
  omega

theorem requestWith_of_fits (h : requestSize as ≤ Draft.defaultCapacity) :
    requestWith type info as = .ok (written type info as) := by
  have hextend : (written type info []).extend (encodeAll as) = written type info as := by
    rw [written, written, Draft.extend_extend, Attribute.encodeAll, List.flatMap_nil,
      List.append_nil]
  have hroom : ((written type info []).extend (encodeAll as)).size ≤
      (written type info []).capacity := by
    rw [hextend, size_written]
    exact h
  rw [requestWith, addRaw_info]
  change as.foldlM Draft.add (written type info []) = _
  rw [Draft.appended_of_room (aligned_written type info []) (declarable_of_fits h) hroom, hextend]

theorem requestWith_of_long (type : UInt16) (info : InterfaceInfo)
    (h : Draft.defaultCapacity < requestSize as) :
    ∃ e, requestWith type info as = .error e ∧ e.ofContents = true := by
  cases hbuilt : requestWith type info as with
  | error e =>
    have hcontents : FailsOnContents (requestWith type info as) := by
      refine .bind (Draft.failsOnContents_addRaw _ _) fun d => ?_
      clear h hbuilt
      induction as generalizing d with
      | nil => exact .ok d
      | cons a as ih => exact .bind (d.failsOnContents_add a) fun d' => ih d'
    exact ⟨e, rfl, hcontents e hbuilt⟩
  | ok d =>
    rw [requestWith, addRaw_info] at hbuilt
    have haligned := aligned_written type info []
    have hempty : (written type info []).size ≤ (written type info []).capacity := by
      rw [size_written]
      exact (by decide : requestSize [] ≤ Draft.defaultCapacity)
    have hroom := Draft.room_of_appended haligned hempty hbuilt
    obtain ⟨rfl, -⟩ := Draft.eq_of_appended haligned hbuilt
    rw [Draft.size_extend, size_written, requestSize] at hroom
    simp only [requestSize] at h
    change _ ≤ Draft.defaultCapacity at hroom
    rw [Attribute.encodeAll, List.flatMap_nil, List.length_nil] at hroom
    omega

theorem sendable_written (h : requestSize as ≤ Draft.defaultCapacity) :
    (written type info as).Sendable where
  sound := {
    base := rfl
    aligned := aligned_written type info as
    room := Nat.le_trans (Nat.le_of_eq (size_written type info as)) h }
  fits := by
    have hsize : (written type info as).encode.length = requestSize as := by
      rw [Draft.length_encode, ← size_written type info as]
      rfl
    have hcapacity : Draft.defaultCapacity < UInt32.size := by decide
    omega

/-! ## Reading back -/

/-- A datagram is nothing but one message, of this type and with this fixed part. Of the attributes
behind that the first name is this one, and the first longest packet, if there is one, is that
one. -/
structure Addressed (type : UInt16) (info : InterfaceInfo) (name : String) (mtu : Option UInt32)
    (datagram : Bytes) (f : Frame) : Prop where
  only : Frame.walk datagram = ⟨[f], none, []⟩
  type : f.header.type = type
  info : InterfaceInfo.decode f.payload = .ok info
  name : ∃ a, (findFirst nameType (f.payload.drop InterfaceInfo.size)).value = some a ∧
    a.text = .ok name
  mtu : (findFirst mtuType (f.payload.drop InterfaceInfo.size)).value.map Attribute.u32 =
    mtu.map .ok

theorem addressed_of_framed {wantsAnswer : Bool} {seq : UInt32} {datagram : Bytes}
    {mtu : Option UInt32} (hfits : requestSize as ≤ Draft.defaultCapacity)
    (hname : as.find? (·.type = nameType) = some (.ofText nameType name))
    (htext : '\x00' ∉ name.toList)
    (hmtu : (as.find? (·.type = mtuType)).map Attribute.u32 = mtu.map .ok)
    (h : Exchange.Framed wantsAnswer [written type info as] seq datagram) :
    ∃ f, Addressed type info name mtu datagram f := by
  obtain ⟨f, hf, hheader, hpayload⟩ := h.frame 0 _ rfl
  have hframes : (Frame.walk datagram).frames = [f] := by
    obtain ⟨f', hone⟩ := List.length_eq_one_iff.mp h.count
    rw [hone] at hf
    rw [hone, Option.some.inj hf]
  have hbytes : f.payload = info.encode ++ encodeAll as := hpayload
  have hbehind : f.payload.drop InterfaceInfo.size = encodeAll as := by
    rw [hbytes]
    exact List.drop_left' info.length_encode
  have hwalk := Attribute.walk_encodeAll (declarable_of_fits hfits)
  refine ⟨f, ?_, ?_, ?_, ⟨_, ?_, Attribute.text_ofText htext nameType⟩, ?_⟩
  · rw [← hframes, ← h.nofault, ← h.nothing]
  · rw [hheader]
    rfl
  · rw [hbytes]
    exact info.decode_encode_append _
  · rw [hbehind, Attribute.Table.value_findFirst, hwalk]
    exact hname
  · rw [hbehind, Attribute.Table.value_findFirst, hwalk]
    exact hmtu

/-! ## What the failure says -/

/-- Of the failures of a request only the kernel's knowing no such device is told as a missing
interface. -/
theorem missing_eq_iff {e : Error} (h : e.OfRequest) (name : String) :
    missing name e = .interfaceNotFound name ↔ ∃ detail, e = .kernel Errno.noDevice detail := by
  unfold missing
  constructor
  · intro hmissing
    split at hmissing
    · rename_i hdevice
      cases h with
      | endpoint h =>
        rw [Error.errno?_of_ofEndpoint h] at hdevice
        cases hdevice
      | contents h =>
        rw [Error.errno?_of_ofContents h] at hdevice
        cases hdevice
      | framing fault => cases hdevice
      | refused failed detail =>
        exact ⟨detail, congrArg (Error.kernel · detail) (Option.some.inj hdevice)⟩
    · subst hmissing
      cases h with
      | endpoint h => cases h
      | contents h => cases h
  · rintro ⟨detail, rfl⟩
    exact if_pos rfl

theorem missing_of_other {e : Error} (h : e.OfRequest)
    (hother : ∀ detail, e ≠ .kernel Errno.noDevice detail) (name : String) : missing name e = e := by
  unfold missing
  split
  · rename_i hdevice
    obtain ⟨detail, hdetail⟩ := (missing_eq_iff h name).mp (if_pos hdevice)
    exact absurd hdetail (hother detail)
  · rfl

/-- What an act comes to that tells a failure of this talk in its own way: that the kernel knows no
such device is told as there being no interface of the name, and any other failure as it is. -/
structure Retold {α β : Type} (name : String) (talked : Except Error β) (result : Except Error α) :
    Prop where
  missing : result = .error (.interfaceNotFound name) ↔
    ∃ detail, talked = .error (.kernel Errno.noDevice detail)
  other : ∀ e, talked = .error e → (∀ detail, e ≠ .kernel Errno.noDevice detail) →
    result = .error e

theorem retold_mapError {σ α : Type} {talk : Action σ α} (h : talk.FailsWith Error.OfRequest)
    (name : String) (c : Connection σ) :
    Retold name (talk c).1 (Connection.mapError (Link.missing name) talk c).1 := by
  have hfails : ∀ e, (talk c).1 = .error e → e.OfRequest := fun e => h c e
  unfold Connection.mapError
  generalize talk c = run at hfails ⊢
  obtain ⟨e | a, c'⟩ := run
  · have hmissing := missing_eq_iff (hfails e rfl) name
    refine ⟨?_, fun e' he' hother => ?_⟩
    · dsimp only
      simp only [Except.error.injEq]
      exact hmissing
    · cases he'
      exact congrArg Except.error (missing_of_other (hfails e rfl) hother name)
  · refine ⟨⟨fun h => ?_, fun h => ?_⟩, fun e he => ?_⟩
    · cases h
    · obtain ⟨detail, h⟩ := h
      cases h
    · cases he

/-- To read the answer then does not change how a failure of the talk is told. -/
theorem Retold.reading {σ α β γ : Type} {talked : Except Error γ} {act : Action σ α}
    {c : Connection σ} (h : Retold name talked (act c).1) {read : α → Decoded β}
    (hread : ∀ a, FailsOnContents (read a).result) :
    Retold name talked ((act >>= fun a => Connection.reading (read a)) c).1 := by
  rw [Action.bind_eq]
  rcases hrun : act c with ⟨e | a, c'⟩
  · rw [hrun] at h
    dsimp only
    refine ⟨?_, fun e' he' hother => ?_⟩
    · rw [← h.missing]
      simp only [Except.error.injEq]
    · cases h.other e' he' hother
      rfl
  · rw [hrun] at h
    refine ⟨?_, fun e' he' hother => ?_⟩
    · rw [← h.missing]
      constructor
      · intro hmissing
        cases hread a _ hmissing
      · intro hmissing
        cases hmissing
    · cases h.other e' he' hother

end Link

namespace Connection

open Link (requestWith requestSize Addressed Retold written)

variable {σ : Type} [Transport σ] {α β : Type} {type : UInt16} {info : InterfaceInfo} {name : String}
  {as : List Attribute} {mtu : Option UInt32}

/-- What becomes of an act that builds a request with these attributes about the interface of a name,
and has this talk about it with the kernel. -/
structure Addresses (act : (τ : Type) → [Transport τ] → Action τ α)
    (talk : Draft → (τ : Type) → [Transport τ] → Action τ β) (type : UInt16) (info : InterfaceInfo)
    (name : String) (mtu : Option UInt32) (as : List Attribute) (c : Connection σ) : Prop where
  /-- A request that is too long for a message is not sent, and nothing changes. -/
  unsent : Draft.defaultCapacity < requestSize as →
    Sends act c [] ∧ ∃ e, act σ c = (.error e, c) ∧ e ≠ .interfaceNotFound name
  /-- Any other is sent once, and the act comes to what the talk comes to. -/
  sent : requestSize as ≤ Draft.defaultCapacity →
    ∃ d pieces f, Sends act c [pieces] ∧ Sends (talk d) c [pieces] ∧
      Addressed type info name mtu pieces.flatten f ∧
      Retold name (talk d σ c).1 (act σ c).1

theorem addresses_of_settling {tail : Draft → (τ : Type) → [Transport τ] → Action τ α}
    {talk : Draft → (τ : Type) → [Transport τ] → Action τ β} {wantsAnswer : Bool}
    (hname : as.find? (·.type = Link.nameType) = some (.ofText Link.nameType name))
    (htext : '\x00' ∉ name.toList)
    (hmtu : (as.find? (·.type = Link.mtuType)).map Attribute.u32 = mtu.map .ok) (c : Connection σ)
    (htalk : ∀ d, Sends (talk d) c [(Exchange.stamp wantsAnswer [d] c.state).1.map Draft.encode])
    (htail : ∀ d sends, Sends (talk d) c sends → Sends (tail d) c sends)
    (hretold : ∀ d, Retold name (talk d σ c).1 (tail d σ c).1) :
    Addresses (fun τ _ => settling (requestWith type info as) >>= fun d => tail d τ) talk type info
      name mtu as c where
  unsent hlong := by
    obtain ⟨e, he, hcontents⟩ := Link.requestWith_of_long type info hlong
    rw [he]
    refine ⟨rfl, e, rfl, ?_⟩
    rintro rfl
    cases hcontents
  sent hfits := by
    let d := written type info as
    have hsendable : ∀ d' ∈ [d], d'.Sendable :=
      List.forall_mem_singleton.mpr (Link.sendable_written hfits)
    obtain ⟨f, hf⟩ := Link.addressed_of_framed hfits hname htext hmtu
      (Exchange.framed_stamp hsendable wantsAnswer c.state)
    rw [Link.requestWith_of_fits hfits]
    exact ⟨d, _, f, htail d _ (htalk d), htalk d, hf, hretold d⟩

/-- **A request about an interface names the interface asked for.** For every name without a zero
character: to bring the interface up or down, to change how long its packets may be, to delete it and
to look it up, each fails with nothing sent and nothing changed if the request with that name does
not fit a message, and otherwise sends one datagram, which is nothing but one message of its type,
without a number, with exactly this name, with the flags that are to change only where the interface
is to go up or down, and with the longest packet where that is to change. It comes to there being no
interface of the name exactly if the kernel refuses the request because it knows no such device;
every other failure of the talk stays what it is. -/
theorem requests_address_name [Transport.Plain σ] {name : String} (hname : '\x00' ∉ name.toList)
    (c : Connection σ) :
    (∀ up, Addresses (fun _ _ => setLinkState name up) (fun d _ _ => request d) MessageType.setLink
      { flags := if up then DeviceFlag.up else 0, change := DeviceFlag.up } name none
      [.ofText Link.nameType name] c) ∧
    (∀ mtu, Addresses (fun _ _ => setLinkMtu name mtu) (fun d _ _ => request d) MessageType.setLink
      {} name (some mtu) [.ofText Link.nameType name, .ofU32 Link.mtuType mtu] c) ∧
    Addresses (fun _ _ => deleteLink name) (fun d _ _ => request d) MessageType.delLink {} name none
      [.ofText Link.nameType name] c ∧
    Addresses (fun _ _ => linkNamed name) (fun d _ _ => ask d) MessageType.getLink {} name none
      [.ofText Link.nameType name, .ofU32 Link.detailType Link.virtualFunctions] c := by
  have hrequest (d : Draft) :
      Sends (fun _ _ => request d) c [(Exchange.stamp false [d] c.state).1.map Draft.encode] :=
    requestAll_noting (List.cons_ne_nil d []) c []
  have hask (d : Draft) :
      Sends (fun _ _ => ask d) c [(Exchange.stamp true [d] c.state).1.map Draft.encode] :=
    ask_noting d c []
  have hretold (d : Draft) : Retold name (request d c).1
      (mapError (Link.missing name) (request d) c).1 :=
    Link.retold_mapError (requestAll_fails [d]) name c
  refine ⟨fun up => ?_, fun mtu => ?_, ?_, ?_⟩
  · unfold setLinkState Link.stateRequest
    rw [Link.namedRequest_eq]
    exact addresses_of_settling rfl hname rfl c hrequest (fun d _ h => h.mapError _) hretold
  · unfold setLinkMtu
    rw [Link.mtuRequest_eq]
    refine addresses_of_settling rfl hname ?_ c hrequest (fun d _ h => h.mapError _) hretold
    exact congrArg some (Attribute.u32_ofU32 Link.mtuType mtu)
  · unfold deleteLink Link.deleteRequest
    rw [Link.namedRequest_eq]
    exact addresses_of_settling rfl hname rfl c hrequest (fun d _ h => h.mapError _) hretold
  · unfold linkNamed
    rw [Link.getRequest_eq]
    refine addresses_of_settling rfl hname rfl c hask
      (fun d _ h => (h.mapError _).reading _) fun d => ?_
    exact (Link.retold_mapError (ask_fails d) name c).reading Link.failsOnContents_readMessage

open Dump (sampleArrivals)

/-- The kernel knows no such device when the interface is to go up. -/
theorem requests_address_name_sample :
    let c := sampleArrivals [{ data := Packet.records [sampleAck 8 0xffffffed] }] none
    let info : InterfaceInfo := { flags := DeviceFlag.up, change := DeviceFlag.up }
    '\x00' ∉ "eth9".toList ∧
      (setLinkState "eth9" true c).1 = .error (.interfaceNotFound "eth9") ∧
      ∃ d pieces f, Sends (fun _ _ => setLinkState "eth9" true) c [pieces] ∧
        Addressed MessageType.setLink info "eth9" none pieces.flatten f ∧
        ∃ detail, (request d c).1 = .error (.kernel Errno.noDevice detail) := by
  intro c info
  have hname : '\x00' ∉ "eth9".toList := by decide
  have hmissing : (setLinkState "eth9" true c).1 = .error (.interfaceNotFound "eth9") :=
    eq_error_of_failure? (by decide +kernel)
  obtain ⟨hstate, -⟩ := requests_address_name hname c
  obtain ⟨d, pieces, f, hsends, -, haddressed, hretold⟩ := (hstate true).sent (by decide)
  exact ⟨hname, hmissing, d, pieces, f, hsends, haddressed, hretold.missing.mp hmissing⟩

end Connection
end Netlink
