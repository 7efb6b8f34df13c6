import Netlink.Proofs.Conversation.Notes
import Netlink.Proofs.Message.Cut
import Netlink.Proofs.Recording.Copy

/-! # How far a recording can be read

Any bytes begin with some records, and behind them stands no further one. A replay that nothing
stops hands over exactly these records. It comes to the end if the bytes are a clean datagram of
messages that may stand in a recording and do not lack the padding of the last; where it does not,
what it stopped at says why. -/

namespace Netlink

/-- A packet is known by its bytes. -/
theorem Packet.eq_of_record {p q : Packet} (hbytes : p.bytes = q.bytes)
    (hrecord : p.record = q.record) : p = q := by
  have hheader : p.header = q.header := by
    have hread := congrArg Header.ofBytes hbytes
    rwa [bytes, bytes, Header.ofBytes_encode_append, Header.ofBytes_encode_append] at hread
  have hpayload : p.payload = q.payload := by
    rw [bytes, bytes, hheader] at hbytes
    exact List.append_cancel_left hbytes
  have hpadding : p.padding = q.padding := by
    rw [record, record, hbytes] at hrecord
    exact List.append_cancel_left hrecord
  obtain ⟨header, payload, padding, _, _⟩ := p
  obtain ⟨header', payload', padding', _, _⟩ := q
  cases hheader
  cases hpayload
  cases hpadding
  rfl

namespace Recording

/-! ## The records at the front -/

theorem next?_eq_none_iff {bs : Bytes} :
    next? bs = none ↔ ∀ p tail, Fits p → bs ≠ p.record ++ tail := by
  constructor
  · intro h p tail hp hbs
    rw [hbs, next?_record hp] at h
    cases h
  · intro h
    cases hnext : next? bs with
    | none => rfl
    | some found =>
      obtain ⟨p, hbs, -, hp⟩ := packet_of_next? hnext
      exact absurd hbs (h p _ hp)

/-- The bytes begin with these records, and what is behind them does not begin with another. -/
structure Begins (bs : Bytes) (ps : List Packet) (rest : Bytes) : Prop where
  split : bs = Packet.records ps ++ rest
  fit : ∀ p ∈ ps, Fits p
  last : ∀ p tail, Fits p → rest ≠ p.record ++ tail

theorem Begins.cons {p : Packet} {ps : List Packet} {bs rest : Bytes} (hp : Fits p)
    (h : Begins bs ps rest) : Begins (p.record ++ bs) (p :: ps) rest where
  split := by rw [h.split, Packet.records_cons, List.append_assoc]
  fit := by simpa using ⟨hp, h.fit⟩
  last := h.last

theorem exists_begins (bs : Bytes) : ∃ ps rest, Begins bs ps rest := by
  cases hnext : next? bs with
  | none => exact ⟨[], bs, rfl, nofun, next?_eq_none_iff.mp hnext⟩
  | some found =>
    obtain ⟨p, hbs, -, hp⟩ := packet_of_next? hnext
    have hshorter := length_of_next? hnext
    obtain ⟨ps, rest, hlater⟩ := exists_begins found.2
    rw [hbs]
    exact ⟨p :: ps, rest, hlater.cons hp⟩
termination_by bs.length

/-- Two records at the front of the same bytes are the same. -/
theorem eq_of_append {p q : Packet} {rest rest' : Bytes} (hp : Fits p) (hq : Fits q)
    (h : p.record ++ rest = q.record ++ rest') : p = q ∧ rest = rest' := by
  have hnext := next?_record hp rest
  rw [h, next?_record hq, Option.some.injEq, Prod.mk.injEq] at hnext
  obtain ⟨hbytes, rfl⟩ := hnext
  exact ⟨Packet.eq_of_record hbytes.symm (List.append_cancel_right h), rfl⟩

/-- There is one way only to read the records at the front of some bytes. -/
theorem Begins.unique {bs rest rest' : Bytes} {ps ps' : List Packet} (h : Begins bs ps rest)
    (h' : Begins bs ps' rest') : ps' = ps ∧ rest' = rest := by
  induction ps generalizing bs ps' with
  | nil =>
    have hbs : bs = rest := h.split
    cases ps' with
    | nil => exact ⟨rfl, h'.split.symm.trans hbs⟩
    | cons q qs =>
      have hsplit := h'.split
      rw [Packet.records_cons, List.append_assoc, hbs] at hsplit
      exact absurd hsplit (h.last q _ (h'.fit q List.mem_cons_self))
  | cons p ps ih =>
    have hsplit := h.split
    rw [Packet.records_cons, List.append_assoc] at hsplit
    cases ps' with
    | nil =>
      have hbs : bs = rest' := h'.split
      rw [hbs] at hsplit
      exact absurd hsplit (h'.last p _ (h.fit p List.mem_cons_self))
    | cons q qs =>
      have hsplit' := h'.split
      rw [Packet.records_cons, List.append_assoc, hsplit] at hsplit'
      obtain ⟨rfl, hrest⟩ := eq_of_append (h.fit p List.mem_cons_self)
        (h'.fit q List.mem_cons_self) hsplit'
      have hlater : Begins (Packet.records ps ++ rest) ps rest :=
        ⟨rfl, fun r hr => h.fit r (List.mem_cons_of_mem _ hr), h.last⟩
      have hlater' : Begins (Packet.records ps ++ rest) qs rest' :=
        ⟨hrest, fun r hr => h'.fit r (List.mem_cons_of_mem _ hr), h'.last⟩
      obtain ⟨rfl, rfl⟩ := ih hlater hlater'
      exact ⟨rfl, rfl⟩

/-! ## What a replay stops at -/

/-- There is a header, and it declares a length that no record has. -/
def Misdeclared (rest : Bytes) : Prop :=
  headerSize ≤ rest.length ∧
    ¬ (headerSize ≤ (Wire.word32 rest).toNat ∧ (Wire.word32 rest).toNat ≤ maxRecord)

instance (rest : Bytes) : Decidable (Misdeclared rest) := inferInstanceAs (Decidable (_ ∧ _))

/-- How long the bytes would have to be for the record that they begin. -/
def needed (rest : Bytes) : Nat :=
  if rest.length < headerSize then headerSize else Wire.align4 (Wire.word32 rest).toNat

theorem fault_eq (offset : Nat) (rest : Bytes) :
    fault offset rest =
      if Misdeclared rest then .framing (.malformedRecord (Wire.word32 rest).toNat offset)
      else .truncated (needed rest) rest.length := by
  unfold fault
  by_cases hshort : rest.length < headerSize
  · have hfair : ¬ Misdeclared rest := fun h => Nat.not_lt.mpr h.1 hshort
    rw [Wire.split?_eq_none_iff.mpr hshort, if_neg hfair, needed, if_pos hshort]
  · have hlong : headerSize ≤ rest.length := Nat.not_lt.mp hshort
    have hsplit : Wire.split? headerSize rest = some (rest.take headerSize, rest.drop headerSize) := by
      refine Wire.split?_eq_some_iff.mpr ⟨(List.take_append_drop _ _).symm, ?_⟩
      rw [List.length_take, Nat.min_eq_left hlong]
    have hword : (Header.ofBytes (rest.take headerSize)).length = Wire.word32 rest :=
      Wire.word32_take rest (by decide)
    rw [hsplit]
    dsimp only
    rw [hword, needed, if_neg hshort]
    by_cases hadmits : headerSize ≤ (Wire.word32 rest).toNat ∧ (Wire.word32 rest).toNat ≤ maxRecord
    · have hfair : ¬ Misdeclared rest := fun h => h.2 hadmits
      have hyes : admits (Wire.word32 rest).toNat = true := by simpa [admits] using hadmits
      rw [if_neg hfair, if_pos hyes]
    · have hyes : admits (Wire.word32 rest).toNat ≠ true := by simpa [admits] using hadmits
      have hunfair : Misdeclared rest := ⟨hlong, hadmits⟩
      rw [if_pos hunfair, if_neg hyes]

/-- There is no record at the front where the header declares a length that no record has, and where
the bytes are too few. -/
theorem next?_eq_none_iff_fault {bs : Bytes} :
    next? bs = none ↔ Misdeclared bs ∨ bs.length < needed bs := by
  constructor
  · intro hnone
    by_cases hmisdeclared : Misdeclared bs
    · exact .inl hmisdeclared
    · refine .inr (Nat.lt_of_not_le fun hneeded => ?_)
      have hlong : headerSize ≤ bs.length := by
        refine Nat.le_of_not_lt fun hshort => ?_
        rw [needed, if_pos hshort] at hneeded
        omega
      rw [needed, if_neg (Nat.not_lt.mpr hlong)] at hneeded
      have hrange : headerSize ≤ (Wire.word32 bs).toNat ∧ (Wire.word32 bs).toNat ≤ maxRecord :=
        Decidable.of_not_not fun hout => hmisdeclared ⟨hlong, hout⟩
      have hadmits : admits (Wire.word32 bs).toNat = true := by simpa [admits] using hrange
      have hfour : 4 ≤ bs.length := Nat.le_trans (by decide) hlong
      rw [next?_eq hfour, if_pos hadmits, Option.map_eq_none_iff, Wire.split?_eq_none_iff] at hnone
      omega
  · intro hfault
    rw [next?_eq_none_iff]
    rintro p tail hp rfl
    have hfield : Wire.word32 (p.record ++ tail) = p.header.length := p.word32_record_append tail
    have hlow := p.length_eq
    have hpad := Wire.le_align4 p.header.length.toNat
    have hlength : (p.record ++ tail).length =
        Wire.align4 p.header.length.toNat + tail.length := by
      rw [List.length_append, p.length_record]
    rcases hfault with ⟨-, hout⟩ | hshort
    · rw [Fits, p.length_bytes] at hp
      rw [hfield] at hout
      exact hout ⟨by omega, hp⟩
    · rw [needed, hfield] at hshort
      split at hshort <;> omega

section Replays

variable {β : Type} {accept : Message → β → Handled β}

theorem replayFrom_of_none {rest : Bytes} (hsome : rest ≠ []) (hnone : next? rest = none)
    (offset count : Nat) (memory : β) :
    replayFrom accept offset count rest memory = (.refused (fault offset rest) memory, count) := by
  have hmore : rest.isEmpty = false := List.isEmpty_eq_false_iff.mpr hsome
  rw [replayFrom, hmore]
  simp only [Bool.false_eq_true, if_false]
  split
  · rfl
  · simp_all

/-- A replay gets behind the records that nobody refuses. -/
theorem replayFrom_append (ps : List Packet) (hfit : ∀ p ∈ ps, Fits p) {memory memory' : β}
    (h : ({ accept } : Consumer β).hand (ps.map (Packet.message 0)) memory = (.ok (), memory'))
    (rest : Bytes) (offset count : Nat) :
    let later :=
      replayFrom accept (offset + (Packet.records ps).length) (count + ps.length) rest memory'
    ∃ log, replayFrom accept offset count (Packet.records ps ++ rest) memory =
      (⟨later.1.value, log ++ later.1.log⟩, later.2) := by
  induction ps generalizing offset count memory with
  | nil =>
    cases h
    exact ⟨[], rfl⟩
  | cons p ps ih =>
    obtain ⟨⟨⟨result, memory₁⟩, log⟩, haccept⟩ : ∃ x, accept (p.message 0) memory = x := ⟨_, rfl⟩
    rw [List.map_cons, Consumer.hand] at h
    dsimp only at h
    rw [haccept] at h
    cases result with
    | error e => cases h
    | ok u =>
      obtain ⟨log', hlater⟩ := ih (fun q hq => hfit q (List.mem_cons_of_mem _ hq)) h
        (offset + Wire.align4 p.bytes.length) (count + 1)
      have hoffset : offset + (Packet.records (p :: ps)).length =
          offset + Wire.align4 p.bytes.length + (Packet.records ps).length := by
        rw [Packet.records_cons, List.length_append, p.length_record, p.length_bytes, Nat.add_assoc]
      have hcount : count + (p :: ps).length = count + 1 + ps.length := by
        rw [List.length_cons]
        omega
      refine ⟨log ++ log', ?_⟩
      rw [hoffset, hcount, Packet.records_cons, List.append_assoc,
        replayFrom_record (hfit p List.mem_cons_self), haccept]
      dsimp only
      rw [hlater, List.append_assoc]

/-- What a replay is that nothing stops before the end of the records at the front. -/
theorem replay_begins {bs rest : Bytes} {ps : List Packet} (hbegins : Begins bs ps rest)
    {memory memory' : β}
    (h : ({ accept } : Consumer β).hand (ps.map (Packet.message 0)) memory = (.ok (), memory')) :
    (replay accept bs memory).value =
      (if rest = [] then .ok ps.length else .error (fault (Packet.records ps).length rest),
        memory') := by
  obtain ⟨log, hreplay⟩ := replayFrom_append ps hbegins.fit h rest 0 0
  rw [Nat.zero_add, Nat.zero_add] at hreplay
  unfold replay
  rw [hbegins.split, hreplay]
  by_cases hend : rest = []
  · rw [if_pos hend, hend, replayFrom_nil]
    rfl
  · rw [if_neg hend, replayFrom_of_none hend (next?_eq_none_iff.mpr hbegins.last)]
    rfl

/-- Bytes are nothing but records if they are a clean datagram that ends on the grid, and all its
messages fit. -/
theorem begins_nil_iff {bs rest : Bytes} {ps : List Packet} (hbegins : Begins bs ps rest) :
    rest = [] ↔ (Frame.walk bs).fault = none ∧ (Frame.walk bs).rest = [] ∧
      (∀ f ∈ (Frame.walk bs).frames, f.bytes.length ≤ maxRecord) ∧ bs.length % 4 = 0 := by
  constructor
  · intro hend
    have hbs : bs = Packet.records ps := by rw [hbegins.split, hend, List.append_nil]
    obtain ⟨hframes, hfault, hnothing⟩ := Frame.walkFrom_records ps 0 0
    rw [hbs]
    refine ⟨hfault, hnothing, fun f hf => ?_, ?_⟩
    · have hmem : f.message 0 ∈ ps.map (Packet.message 0) := by
        rw [← hframes]
        exact List.mem_map_of_mem hf
      obtain ⟨p, hp, hsame⟩ := List.mem_map.mp hmem
      have hbytes : p.bytes = f.bytes := congrArg Message.bytes hsame
      rw [← hbytes]
      exact hbegins.fit p hp
    · rw [Packet.length_records ps 0]
      induction ps.map (Packet.message 0) with
      | nil => rfl
      | cons m ms ih =>
        have hpad := Wire.length_padded_mod m.bytes
        rw [List.flatMap_cons, List.length_append]
        omega
  · rintro ⟨hfault, hnothing, hfits, hgrid⟩
    have hplain : Plain { data := bs } := ⟨Frame.Walk.complaint?_eq_none.mpr ⟨hfault, hnothing⟩, hfits⟩
    obtain ⟨qs, hqs, -, hfit⟩ := hplain.packets
    rw [Wire.padded_of_mod hgrid] at hqs
    have hwhole : Begins bs qs [] := by
      refine ⟨by rw [List.append_nil]; exact hqs, hfit, fun p tail _ hempty => ?_⟩
      have hlength := congrArg List.length hempty
      have hrecord := p.length_bytes_le_record
      have hheader := p.headerSize_le_length_bytes
      simp only [List.length_nil, List.length_append, headerSize] at hlength hheader
      omega
    exact ((hwhole.unique hbegins).2)

/-! ## Consumers that refuse nothing -/

/-- A consumer that refuses nothing is handed all records at the front, and nothing else. -/
theorem replay_traced {bs rest : Bytes} {ps : List Packet} (hbegins : Begins bs ps rest)
    (hwilling : ({ accept } : Consumer β).Willing) (memory : β) :
    let k : Consumer β := { accept }
    let stopped :=
      if rest = [] then .ok ps.length else .error (fault (Packet.records ps).length rest)
    (replay accept bs memory).value.1 = stopped ∧
      (replay k.traced.accept bs (memory, [])).value =
        (stopped, ((replay accept bs memory).value.2, ps.map (Packet.message 0))) := by
  intro k stopped
  obtain ⟨memory', hhand⟩ : ∃ memory', k.hand (ps.map (Packet.message 0)) memory =
      (.ok (), memory') := ⟨_, Prod.ext (hwilling.hand _ memory) rfl⟩
  have hreplay := replay_begins hbegins hhand
  have htraced := k.hand_traced (ps.map (Packet.message 0)) memory []
  rw [hhand, hwilling.handed, List.nil_append] at htraced
  rw [hreplay]
  exact ⟨rfl, replay_begins hbegins htraced⟩

end Replays

/-- **What decides a replay.** Over any bytes and with a consumer that refuses nothing, a replay ends
well with a number just if the bytes are a clean datagram of so many messages, none of them too long
for a recording, and the datagram ends on the grid. The consumer was then handed these messages in
order. Otherwise it was handed the records in front of the first bytes that are not a record; the
failure is one of framing if these bytes have a header that declares a length which no record has, and
else that they are too few. -/
theorem replay_decided {β : Type} (accept : Message → β → Handled β)
    (hwilling : ({ accept } : Consumer β).Willing) (bs : Bytes) (memory : β) :
    let k : Consumer β := { accept }
    let walk := Frame.walk bs
    let result := (replay accept bs memory).value.1
    let calls := (replay k.traced.accept bs (memory, [])).value.2.2
    (replay k.traced.accept bs (memory, [])).value =
        (result, ((replay accept bs memory).value.2, calls)) ∧
      (∀ n, result = .ok n ↔ walk.frames.length = n ∧ walk.fault = none ∧ walk.rest = [] ∧
        (∀ f ∈ walk.frames, f.bytes.length ≤ maxRecord) ∧ bs.length % 4 = 0) ∧
      (∀ n, result = .ok n → calls = walk.frames.map (Frame.message 0)) ∧
      ∀ e, result = .error e → ∃ ps rest, Begins bs ps rest ∧ rest ≠ [] ∧
        calls = ps.map (Packet.message 0) ∧
        e = if Misdeclared rest then
            .framing (.malformedRecord (Wire.word32 rest).toNat (bs.length - rest.length))
          else .truncated (needed rest) rest.length := by
  intro k walk result calls
  obtain ⟨ps, rest, hbegins⟩ := exists_begins bs
  obtain ⟨hresult, htraced⟩ := replay_traced hbegins hwilling memory
  have hcalls : calls = ps.map (Packet.message 0) := congrArg (·.2.2) htraced
  have hrun : (replay k.traced.accept bs (memory, [])).value =
      (result, ((replay accept bs memory).value.2, calls)) := by
    rw [htraced, hcalls, ← hresult]
  have hend := begins_nil_iff hbegins
  refine ⟨hrun, ?_⟩
  change result = _ at hresult
  by_cases hempty : rest = []
  · have hbs : bs = Packet.records ps := by rw [hbegins.split, hempty, List.append_nil]
    have hframes : walk.frames.map (Frame.message 0) = ps.map (Packet.message 0) :=
      (Frame.walk_of_records hbs 0).1
    have hcount := congrArg List.length hframes
    rw [List.length_map, List.length_map] at hcount
    rw [if_pos hempty] at hresult
    refine ⟨fun n => ?_, fun n _ => hcalls.trans hframes.symm, fun e he => ?_⟩
    · rw [hresult, Except.ok.injEq, hcount]
      exact (and_iff_left (hend.mp hempty)).symm
    · rw [hresult] at he
      cases he
  · rw [if_neg hempty] at hresult
    refine ⟨fun n => ⟨fun hn => ?_, fun h => absurd (hend.mpr h.2) hempty⟩, fun n hn => ?_,
      fun e he => ⟨ps, rest, hbegins, hempty, hcalls, ?_⟩⟩
    · rw [hresult] at hn
      cases hn
    · rw [hresult] at hn
      cases hn
    · have hplace : bs.length - rest.length = (Packet.records ps).length := by
        rw [hbegins.split, List.length_append, Nat.add_sub_cancel]
      rw [hresult, Except.error.injEq, fault_eq] at he
      rw [hplace, he]

open Dump (sampleObject)

/-- One record is replayed as its message. Behind it a header that declares thirteen bytes is a
fault of framing. -/
theorem replay_decided_sample :
    let object := sampleObject 7 [21, 22, 23, 24] (by decide)
    let torn := object.record ++ 13 :: List.replicate 15 0
    ({ accept := keep } : Consumer (List Message)).Willing ∧
      (replay keep object.record []).value.1 = .ok 1 ∧
      (replay keep torn []).value.1 = .error (.framing (.malformedRecord 13 20)) ∧
      ∃ ps rest, Begins torn ps rest ∧ rest ≠ [] ∧
        (replay (Consumer.traced { accept := keep }).accept torn ([], [])).value.2.2 =
          ps.map (Packet.message 0) := by
  have hwilling : ({ accept := keep } : Consumer (List Message)).Willing := fun _ _ => rfl
  have hfails : (replay keep ((sampleObject 7 [21, 22, 23, 24] (by decide)).record ++
      13 :: List.replicate 15 0) []).value.1 = .error (.framing (.malformedRecord 13 20)) := by
    cbv
  intro object torn
  obtain ⟨-, hends, -⟩ := replay_decided keep hwilling object.record []
  obtain ⟨-, -, -, hstops⟩ := replay_decided keep hwilling torn []
  obtain ⟨ps, rest, hbegins, hmore, hcalls, -⟩ := hstops _ hfails
  exact ⟨hwilling, (hends 1).mpr (by decide +kernel), hfails, ps, rest, hbegins, hmore, hcalls⟩

end Recording
end Netlink
