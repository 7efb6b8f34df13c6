import Netlink.Proofs.Message.Echo

/-! # Where in a request the fault lies

An ERROR can point to the byte of the request that is at fault. The pointer is checked, but against
the length of the ERROR and not of the request that it points into. A capped answer is short, so a
pointer into a long request is lost; an answer that is not capped is longer than the request that it
echoes, so no pointer into the request is lost, and one that is a little past its end is given as it
is. -/

namespace Netlink.Ack

/-- The offset that is read from the attributes. -/
def offsetIn (bs : Bytes) : Option UInt32 :=
  ((Attribute.walk bs).attributes.find? (·.type = offsetType)).bind (·.u32.toOption)

/-- The offset has been checked against a length: one that is not past it is given as it is, and any
other is reported and given as zero. -/
structure CheckedBy (length offset : UInt32) (read : Logged (Option Ack)) : Prop where
  given : read.value.bind (·.offset) = some (if length < offset then 0 else offset)
  reported : .badOffset offset ∈ read.log ↔ length < offset

theorem value_offsetOf (header : Header) (table : Attribute.Table) :
    (offsetOf header table).value =
      ((table.get? offsetType).bind (·.u32.toOption)).map fun offset =>
        if header.length < offset then 0 else offset := by
  unfold offsetOf
  cases (table.get? offsetType).bind (·.u32.toOption) with
  | none => rfl
  | some offset =>
    rw [Option.map_some]
    dsimp only
    split <;> rfl

theorem mem_log_offsetOf (header : Header) (table : Attribute.Table) (offset : UInt32) :
    .badOffset offset ∈ (offsetOf header table).log ↔
      (table.get? offsetType).bind (·.u32.toOption) = some offset ∧ header.length < offset := by
  unfold offsetOf
  cases (table.get? offsetType).bind (·.u32.toOption) with
  | none => simp
  | some found =>
    dsimp only
    split
    · rename_i hpast
      have hlog : (Logged.tell [.badOffset found] >>= fun _ => pure (some 0) :
          Logged (Option UInt32)).log = [.badOffset found] := rfl
      simp only [hlog, List.mem_singleton, Event.badOffset.injEq, Option.some.injEq]
      constructor
      · rintro rfl
        exact ⟨rfl, hpast⟩
      · exact fun h => h.1.symm
    · rename_i hwithin
      simp only [Logged.log_pure, List.not_mem_nil, Option.some.injEq, false_iff, not_and]
      rintro rfl
      exact hwithin

variable {header : Header} {payload : Bytes} {reply : ErrorReply} {offset : UInt32}

theorem offsetIn_eq (bs : Bytes) :
    offsetIn bs =
      ((Attribute.Table.read maxType bs).value.get? offsetType).bind (·.u32.toOption) := by
  have hslot : offsetType ≤ maxType := by decide
  exact congrArg (Option.bind · _) (Attribute.Table.get?_fileAll_zero hslot _).symm

/-- An ERROR with attributes is read in two steps, the table of the attributes and the offset in it.
-/
theorem ofError_eq (hannounced : announced header = true)
    (hreply : ErrorReply.decode payload = .ok reply) :
    let table := Attribute.Table.read maxType (reply.attributeBytes header.flags payload)
    let offset := offsetOf header table.value
    let request := if header.has MessageFlag.capped then none else some reply.request
    ofError header payload =
      ⟨some ⟨reply.code, textOf table.value, offset.value, request⟩, table.log ++ offset.log⟩ := by
  intro table offset request
  rw [ofError, if_pos hannounced, hreply]
  refine Logged.ext rfl ?_
  simp only [Logged.log_bind, Logged.log_pure, List.append_nil, table, offset]

/-- What is given for the offset in the attributes of an ERROR, and what is reported of it. -/
theorem ofError_offset (hannounced : announced header = true)
    (hreply : ErrorReply.decode payload = .ok reply) :
    let read := ofError header payload
    let found := offsetIn (reply.attributeBytes header.flags payload)
    (read.value.bind (·.offset) =
        found.map fun offset => if header.length < offset then 0 else offset) ∧
      ∀ offset, .badOffset offset ∈ read.log ↔ found = some offset ∧ header.length < offset := by
  intro read found
  let table := Attribute.Table.read maxType (reply.attributeBytes header.flags payload)
  have hfound : found = (table.value.get? offsetType).bind (·.u32.toOption) := offsetIn_eq _
  have hread : read = _ := ofError_eq hannounced hreply
  rw [hread, hfound]
  refine ⟨value_offsetOf header table.value, fun offset => ?_⟩
  have htable : .badOffset offset ∉ table.log := by
    intro hmem
    obtain ⟨deficit, declared, hother⟩ := Attribute.Table.log_read hmem
    cases hother
  rw [List.mem_append, or_iff_right htable]
  exact mem_log_offsetOf header table.value offset

/-- An offset that has been checked against one length has been checked against another exactly if
it is past both or past none of them. -/
theorem CheckedBy.iff {length other : UInt32} {read : Logged (Option Ack)}
    (h : CheckedBy length offset read) :
    CheckedBy other offset read ↔ (length < offset ↔ other < offset) := by
  constructor
  · exact fun h' => h.reported.symm.trans h'.reported
  · intro hsame
    refine ⟨?_, h.reported.trans hsame⟩
    rw [h.given]
    simp only [hsame]

/-- A whole answer that is not capped and has attributes is longer than the request that it echoes.
-/
theorem length_le_of_whole (hlength : header.length.toNat = headerSize + payload.length)
    (hwhole : header.has MessageFlag.capped = false)
    (hfound : offsetIn (reply.attributeBytes header.flags payload) = some offset) :
    reply.request.length ≤ header.length := by
  have hflag : header.flags &&& MessageFlag.capped = 0 := by simpa [Header.has] using hwhole
  have hsome : reply.attributeBytes header.flags payload ≠ [] := by
    intro hempty
    rw [hempty, offsetIn, Attribute.walk_of_next?_none rfl] at hfound
    cases hfound
  rw [ErrorReply.attributeBytes, if_pos hflag, Header.payloadSize, ne_eq, List.drop_eq_nil_iff,
    Nat.not_le] at hsome
  rw [UInt32.le_iff_toNat_le, hlength]
  omega

/-- **The offset is checked against the answer and not against the request.** Take any ERROR that is
long enough for its fixed part, capped or not, and any offset in its attributes. The offset is kept
if it is not past the length of the ERROR, and otherwise reported and reset. So it has been checked
against the request exactly if it is past the end of both messages or of neither. In a whole answer
that is not capped, an offset inside the request is kept. Without an offset in the attributes there
is none to report. -/
theorem offset_checked_by_answer (hannounced : announced header = true)
    (hreply : ErrorReply.decode payload = .ok reply) :
    let read := ofError header payload
    let found := offsetIn (reply.attributeBytes header.flags payload)
    (∃ ack, read.value = some ack ∧ (found = none → ack.offset = none) ∧
        (ack.request = if header.has MessageFlag.capped then none else some reply.request)) ∧
      (found = none → ∀ offset, .badOffset offset ∉ read.log) ∧
      ∀ offset, found = some offset →
        CheckedBy header.length offset read ∧
        (CheckedBy reply.request.length offset read ↔
          (header.length < offset ↔ reply.request.length < offset)) ∧
        (header.has MessageFlag.capped = false →
          header.length.toNat = headerSize + payload.length → offset ≤ reply.request.length →
          CheckedBy reply.request.length offset read) := by
  intro read found
  have hread : read = _ := ofError_eq hannounced hreply
  obtain ⟨hgiven, hreported⟩ := ofError_offset hannounced hreply
  change read.value.bind _ = found.map _ at hgiven
  refine ⟨?_, fun hnone offset hmem => ?_, fun offset hfound => ?_⟩
  · refine ⟨_, congrArg Logged.value hread, fun hnone => ?_, rfl⟩
    rw [hread, hnone] at hgiven
    exact hgiven
  · have hsome := ((hreported offset).mp hmem).1
    exact Option.some_ne_none offset (hsome.symm.trans hnone)
  · have hchecked : CheckedBy header.length offset read := by
      refine ⟨?_, (hreported offset).trans (and_iff_right hfound)⟩
      rw [hgiven, hfound, Option.map_some]
    refine ⟨hchecked, hchecked.iff, fun hwhole hlength hinside => hchecked.iff.mpr ?_⟩
    have hlonger := length_le_of_whole hlength hwhole hfound
    have hnot : ¬ reply.request.length < offset := UInt32.not_lt.mpr hinside
    have hnot' : ¬ header.length < offset := UInt32.not_lt.mpr (UInt32.le_trans hinside hlonger)
    exact iff_of_false hnot' hnot

/-- The attributes of a refusal that points to a byte of the request. -/
def samplePointer (offset : UInt32) : List Attribute :=
  [.ofText textType "no", .ofU32 offsetType offset]

/-- A request of twenty bytes is refused, and the last byte is at fault. -/
theorem offset_checked_by_answer_sample :
    let header : Header := ⟨56, MessageType.error, MessageFlag.ackAttributes, 1, 2⟩
    let request : Header := ⟨20, 18, 769, 7, 0⟩
    let payload := ErrorReply.payload (-22) (request.encode ++ [5, 6, 7, 8]) (samplePointer 19)
    announced header = true ∧ ErrorReply.decode payload = .ok ⟨-22, request⟩ ∧
      CheckedBy request.length 19 (ofError header payload) := by
  intro header request payload
  have hannounced : announced header = true := by decide
  have hreply : ErrorReply.decode payload = .ok ⟨-22, request⟩ :=
    ErrorReply.decode_payload (-22) request [5, 6, 7, 8] (samplePointer 19)
  have hfound : offsetIn (ErrorReply.attributeBytes ⟨-22, request⟩ header.flags payload) =
      some 19 := by decide +kernel
  obtain ⟨-, -, hoffset⟩ := offset_checked_by_answer hannounced hreply
  obtain ⟨-, -, hwhole⟩ := hoffset 19 hfound
  exact ⟨hannounced, hreply, hwhole (by decide) (by decide) (by decide)⟩

/-- A capped refusal of a request of 200 bytes points to byte 100 of it, which is lost. A refusal
that is not capped points to byte 40 of a request of twenty bytes, which is given. -/
theorem offset_lost_and_offset_invented :
    let capped : Header := ⟨52, MessageType.error, 0x300, 1, 2⟩
    let long : Header := ⟨200, 18, 769, 7, 0⟩
    let whole : Header := ⟨56, MessageType.error, MessageFlag.ackAttributes, 1, 2⟩
    let short : Header := ⟨20, 18, 769, 7, 0⟩
    let lost := ofError capped (ErrorReply.payload (-22) long.encode (samplePointer 100))
    let invented := ofError whole
      (ErrorReply.payload (-22) (short.encode ++ [5, 6, 7, 8]) (samplePointer 40))
    lost = ⟨some ⟨-22, some "no", some 0, none⟩, [.badOffset 100]⟩ ∧
      invented = ⟨some ⟨-22, some "no", some 40, some short⟩, []⟩ ∧
      ¬ CheckedBy long.length 100 lost ∧ ¬ CheckedBy short.length 40 invented := by
  intro capped long whole short lost invented
  have hlost : lost = ⟨some ⟨-22, some "no", some 0, none⟩, [.badOffset 100]⟩ :=
    Logged.ext (by decide +kernel) (by decide +kernel)
  have hinvented : invented = ⟨some ⟨-22, some "no", some 40, some short⟩, []⟩ :=
    Logged.ext (by decide +kernel) (by decide +kernel)
  refine ⟨hlost, hinvented, fun h => ?_, fun h => ?_⟩
  · rw [hlost] at h
    exact absurd h.given (by decide)
  · rw [hinvented] at h
    exact absurd h.given (by decide)

end Netlink.Ack
