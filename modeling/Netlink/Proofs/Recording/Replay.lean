import Netlink.Proofs.Conversation.DumpStream
import Netlink.Recording

/-! # What a replay makes of a recording

A record of a recording is a packet that is not too long, and a replay takes packets off its front
as long as there are any. It comes to the end exactly of runs of such packets, if nothing that it
hands over is refused. -/

namespace Netlink

/-- A record begins with its length. -/
theorem Packet.word32_record_append (p : Packet) (rest : Bytes) :
    Wire.word32 (p.record ++ rest) = p.header.length := by
  simp only [record, bytes, Header.encode, List.append_assoc, Wire.word32_le32_append]

namespace Recording

/-- The message may stand in a recording. -/
def Fits (p : Packet) : Prop := p.bytes.length ≤ maxRecord

theorem admits_length {p : Packet} (h : Fits p) : admits p.header.length.toNat = true := by
  have hlow : headerSize ≤ p.header.length.toNat := by
    rw [p.length_eq]
    omega
  rw [Fits, p.length_bytes] at h
  rw [admits, decide_eq_true hlow, decide_eq_true h]
  rfl

/-- The first field of the first header says how long the first message is. -/
theorem next?_eq {bs : Bytes} (h : 4 ≤ bs.length) :
    next? bs =
      if admits (Wire.word32 bs).toNat then
        (Wire.split? (Wire.align4 (Wire.word32 bs).toNat) bs).map fun (record, rest) =>
          (record.take (Wire.word32 bs).toNat, rest)
      else none := by
  have hfour : Wire.split? 4 bs = some (bs.take 4, bs.drop 4) := by
    refine Wire.split?_eq_some_iff.mpr ⟨(List.take_append_drop 4 bs).symm, ?_⟩
    rw [List.length_take, Nat.min_eq_left h]
  unfold next?
  rw [hfour]
  dsimp only
  rw [Wire.word32_take bs (Nat.le_refl 4)]
  split
  · cases Wire.split? (Wire.align4 (Wire.word32 bs).toNat) bs <;> rfl
  · rfl

theorem next?_record {p : Packet} (h : Fits p) (rest : Bytes) :
    next? (p.record ++ rest) = some (p.bytes, rest) := by
  have hfield := p.word32_record_append rest
  have hlong : 4 ≤ (p.record ++ rest).length := by
    have hlow := p.length_eq
    have hpad := Wire.le_align4 p.header.length.toNat
    rw [List.length_append, p.length_record]
    simp only [headerSize] at hlow
    omega
  have htake : p.record.take p.header.length.toNat = p.bytes := List.take_left' p.length_bytes
  rw [next?_eq hlong, hfield, if_pos (admits_length h), Wire.split?_append p.length_record,
    Option.map_some]
  dsimp only
  rw [htake]

/-- What is taken off the front of a recording is a packet. -/
theorem packet_of_next? {bs message rest : Bytes} (h : next? bs = some (message, rest)) :
    ∃ p : Packet, bs = p.record ++ rest ∧ message = p.bytes ∧ Fits p := by
  have hlong : 4 ≤ bs.length := by
    rcases Nat.lt_or_ge bs.length 4 with hshort | hlong
    · rw [next?, Wire.split?_eq_none_iff.mpr hshort] at h
      cases h
    · exact hlong
  obtain ⟨length, hfield⟩ : ∃ length, (Wire.word32 bs).toNat = length := ⟨_, rfl⟩
  rw [next?_eq hlong, hfield] at h
  split at h
  · rename_i hadmits
    obtain ⟨⟨record, rest'⟩, hsplit, hmessage⟩ := Option.map_eq_some_iff.mp h
    simp only [Prod.mk.injEq] at hmessage
    obtain ⟨rfl, rfl⟩ := hmessage
    obtain ⟨hbs, hrecord⟩ := Wire.split?_eq_some_iff.mp hsplit
    simp only [admits, Bool.and_eq_true, decide_eq_true_eq] at hadmits
    obtain ⟨hlow, hhigh⟩ := hadmits
    have hpad := Wire.le_align4 length
    -- the first sixteen bytes are a header that declares this length
    let header := Header.ofBytes (record.take headerSize)
    have hencode : header.encode = record.take headerSize := by
      refine Header.encode_ofBytes ?_
      rw [List.length_take]
      omega
    have hbytes : header.encode ++ (record.take length).drop headerSize = record.take length := by
      have hfirst : (record.take length).take headerSize = record.take headerSize := by
        rw [List.take_take, Nat.min_eq_left hlow]
      rw [hencode, ← hfirst, List.take_append_drop]
    have hdeclared : header.length.toNat = length := by
      have hword : Wire.word32 (record.take headerSize) = Wire.word32 bs := by
        have hfirst : bs.take headerSize = record.take headerSize := by
          rw [hbs, List.take_append_of_le_length (by omega)]
        rw [← hfirst, Wire.word32_take bs (by decide)]
      rw [← hfield]
      exact congrArg UInt32.toNat hword
    let p : Packet := {
      header
      payload := (record.take length).drop headerSize
      padding := record.drop length
      length_eq := by
        rw [hdeclared, List.length_drop, List.length_take]
        omega
      length_padding := by
        rw [hdeclared, List.length_drop]
        omega }
    refine ⟨p, ?_, hbytes.symm, ?_⟩
    · rw [Packet.record, Packet.bytes, hbytes, List.take_append_drop]
      exact hbs
    · rw [Fits, p.length_bytes, hdeclared]
      exact hhigh
  · cases h

/-! ## Replays -/

section Replays

variable {β : Type} {accept : Message → β → Handled β} {memory : β} {offset count : Nat}

theorem replayFrom_nil : replayFrom accept offset count [] memory = (.taken memory, count) := by
  rw [replayFrom]
  rfl

/-- The first message is handed over, and the replay goes on unless it is refused. -/
theorem replayFrom_record {p : Packet} (h : Fits p) (rest : Bytes) :
    replayFrom accept offset count (p.record ++ rest) memory =
      match accept (p.message 0) memory with
      | ⟨(.error e, memory), log⟩ => (⟨(.error e, memory), log⟩, count)
      | ⟨(.ok (), memory), log⟩ =>
        let later := replayFrom accept (offset + Wire.align4 p.bytes.length) (count + 1) rest memory
        (⟨later.1.value, log ++ later.1.log⟩, later.2) := by
  have hnext := next?_record h rest
  have hsome : (p.record ++ rest).isEmpty = false := by
    rw [List.isEmpty_eq_false_iff]
    intro hempty
    rw [hempty] at hnext
    cases hnext
  have hmessage : (⟨0, Header.ofBytes p.bytes, p.bytes⟩ : Message) = p.message 0 := by
    rw [Packet.message, Packet.bytes, Header.ofBytes_encode_append]
  rw [replayFrom, hsome]
  simp only [Bool.false_eq_true, if_false]
  split
  · rename_i hnone
    rw [hnext] at hnone
    cases hnone
  · rename_i message rest' hsome'
    rw [hnext, Option.some.injEq, Prod.mk.injEq] at hsome'
    obtain ⟨rfl, rfl⟩ := hsome'
    rw [hmessage]
    rcases accept (p.message 0) memory with ⟨⟨e | _, memory⟩, log⟩ <;> rfl

theorem replayFrom_records (ps : List Packet) (hfit : ∀ p ∈ ps, Fits p) (offset count : Nat)
    (memory : β) :
    let handed := ({ accept } : Consumer β).hand (ps.map (Packet.message 0)) memory
    (replayFrom accept offset count (Packet.records ps) memory).1.value = handed ∧
      (handed.1 = .ok () →
        (replayFrom accept offset count (Packet.records ps) memory).2 = count + ps.length) := by
  induction ps generalizing offset count memory with
  | nil =>
    rw [Packet.records, List.flatMap_nil, replayFrom_nil]
    exact ⟨rfl, fun _ => rfl⟩
  | cons p ps ih =>
    have hp := hfit p List.mem_cons_self
    have hps : ∀ p ∈ ps, Fits p := fun q hq => hfit q (List.mem_cons_of_mem _ hq)
    obtain ⟨⟨⟨result, memory'⟩, log⟩, haccept⟩ : ∃ x, accept (p.message 0) memory = x := ⟨_, rfl⟩
    rw [Packet.records_cons, replayFrom_record hp, List.map_cons, Consumer.hand]
    dsimp only
    rw [haccept]
    cases result with
    | error e =>
      refine ⟨rfl, fun hok => ?_⟩
      cases hok
    | ok u =>
      obtain ⟨hvalue, hcount⟩ := ih hps (offset + Wire.align4 p.bytes.length) (count + 1) memory'
      refine ⟨hvalue, fun hok => ?_⟩
      dsimp only
      rw [hcount hok, List.length_cons]
      omega

/-- A replay that comes to the end has come through a run of packets that fit. -/
theorem packets_of_replayFrom {bs : Bytes}
    (h : (replayFrom accept offset count bs memory).1.value.1 = .ok ()) :
    ∃ ps, bs = Packet.records ps ∧ ∀ p ∈ ps, Fits p := by
  fun_induction replayFrom accept offset count bs memory with
  | case1 offset count bs memory hempty =>
    exact ⟨[], List.isEmpty_iff.mp hempty, nofun⟩
  | case2 => cases h
  | case3 => cases h
  | case4 offset count bs memory hmore message rest hnext memory' log value more total hlater
      haccept ih =>
    obtain ⟨p, hbs, -, hp⟩ := packet_of_next? hnext
    rw [hlater] at ih
    obtain ⟨ps, hps, hfit⟩ := ih h
    refine ⟨p :: ps, ?_, fun q hq => ?_⟩
    · rw [hbs, hps, Packet.records_cons]
    · rcases List.mem_cons.mp hq with rfl | hq
      · exact hp
      · exact hfit q hq

/-- A run of packets that fit is replayed as their messages. -/
theorem replay_records (accept : Message → β → Handled β) (ps : List Packet)
    (hfit : ∀ p ∈ ps, Fits p) (memory : β) :
    let handed := ({ accept } : Consumer β).hand (ps.map (Packet.message 0)) memory
    (replay accept (Packet.records ps) memory).value =
      (handed.1.map fun _ => ps.length, handed.2) := by
  intro handed
  obtain ⟨hvalue, hcount⟩ : (replayFrom accept 0 0 (Packet.records ps) memory).1.value = handed ∧
      (handed.1 = .ok () → (replayFrom accept 0 0 (Packet.records ps) memory).2 = 0 + ps.length) :=
    replayFrom_records ps hfit 0 0 memory
  unfold replay
  obtain ⟨⟨⟨value, log⟩, total⟩, hreplay⟩ :
    ∃ x, replayFrom accept 0 0 (Packet.records ps) memory = x := ⟨_, rfl⟩
  rw [hreplay] at hvalue hcount ⊢
  obtain rfl : value = handed := hvalue
  rcases hhanded : handed with ⟨e | _, memory'⟩
  · rfl
  · have htotal : total = 0 + ps.length := hcount (by rw [hhanded])
    rw [Nat.zero_add] at htotal
    rw [htotal]
    rfl

theorem packets_of_replay {bs : Bytes} {total : Nat}
    (h : (replay accept bs memory).value.1 = .ok total) :
    ∃ ps, bs = Packet.records ps ∧ ∀ p ∈ ps, Fits p := by
  have hcame : (replayFrom accept 0 0 bs memory).1.value.1 = .ok () := by
    unfold replay at h
    split at h
    · rename_i hreplay
      rw [hreplay]
    · cases h
  exact packets_of_replayFrom hcame

end Replays

end Recording
end Netlink
