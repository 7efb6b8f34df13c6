import Netlink.Conversation.Transport
import Netlink.Proofs.Message.Packets

/-! # Datagrams without their end

A datagram that was too long for its receiver arrives cut off. Of a run of packets it then shows the
messages that end before the cut, wherever the cut falls: within a header, a payload or padding. -/

namespace Netlink

/-- The datagram when only its first `k` bytes arrive. -/
def Datagram.cut (d : Datagram) (k : Nat) : Datagram :=
  { d with data := d.data.take k, truncated := true }

namespace Packet

/-- The packets of a run whose messages end within its first `k` bytes. -/
def within (k : Nat) : List Packet → List Packet
  | [] => []
  | p :: ps => if p.bytes.length ≤ k then p :: within (k - p.record.length) ps else []

theorem headerSize_le_length_bytes (p : Packet) : headerSize ≤ p.bytes.length := by
  rw [length_bytes, p.length_eq]
  omega

theorem length_bytes_le_record (p : Packet) : p.bytes.length ≤ p.record.length := by
  simp [record]

/-- A packet of the run is among them exactly if its message ends at or before `k`. -/
theorem getElem?_within (ps : List Packet) (k i : Nat) (p : Packet) :
    (within k ps)[i]? = some p ↔
      ps[i]? = some p ∧ (records (ps.take i)).length + p.bytes.length ≤ k := by
  induction ps generalizing k i with
  | nil => simp [within]
  | cons q ps ih =>
    have hp := p.headerSize_le_length_bytes
    have hq := q.length_bytes_le_record
    simp only [headerSize] at hp
    by_cases hin : q.bytes.length ≤ k
    · rw [within, if_pos hin]
      cases i with
      | zero =>
        simp only [List.getElem?_cons_zero, List.take_zero, Option.some.injEq]
        constructor
        · rintro rfl
          exact ⟨rfl, by simpa [records] using hin⟩
        · exact And.left
      | succ i =>
        simp only [List.getElem?_cons_succ, List.take_succ_cons, records_cons, List.length_append]
        rw [ih]
        exact and_congr_right fun _ => by omega
    · rw [within, if_neg hin]
      cases i with
      | zero =>
        simp only [List.getElem?_nil, reduceCtorEq, List.getElem?_cons_zero, Option.some.injEq,
          List.take_zero, false_iff, not_and]
        rintro rfl
        simpa [records] using hin
      | succ i =>
        simp only [List.getElem?_nil, reduceCtorEq, List.take_succ_cons, records_cons,
          List.length_append, false_iff, not_and]
        intro _
        omega

/-- A message that was cut off is none. -/
theorem front_cut (p : Packet) (rest : Bytes) {k : Nat} (h : k < p.bytes.length) :
    Front.of ((p.record ++ rest).take k) = .short ∨
      ∃ declared, Front.of ((p.record ++ rest).take k) = .malformed declared := by
  have htake : (p.record ++ rest).take k = p.bytes.take k := by
    rw [record, List.append_assoc, List.take_append_of_le_length (by omega)]
  have hlength : (p.bytes.take k).length = k := by
    rw [List.length_take]
    omega
  rw [htake, Front.of]
  by_cases hshort : k < headerSize
  · left
    rw [Wire.split?_eq_none_iff.mpr (by omega)]
  · right
    have hheader : p.bytes.take k = p.header.encode ++ p.payload.take (k - headerSize) := by
      rw [bytes, List.take_append, p.header.length_encode,
        List.take_of_length_le (by rw [p.header.length_encode]; omega)]
    have hcut : Wire.split? p.header.length.toNat (p.bytes.take k) = none := by
      rw [Wire.split?_eq_none_iff, hlength, ← p.length_bytes]
      exact h
    refine ⟨p.header.length.toNat, ?_⟩
    rw [hheader, Wire.split?_append p.header.length_encode, ← hheader]
    dsimp only
    rw [Header.ofBytes_encode, hcut]
    split <;> rfl

end Packet

namespace Frame

theorem frames_walkFrom_of_short {bs : Bytes} (offset : Nat)
    (h : Front.of bs = .short ∨ ∃ declared, Front.of bs = .malformed declared) :
    (walkFrom offset bs).frames = [] := by
  obtain hshort | ⟨declared, hmalformed⟩ := h
  · rw [walkFrom_of_short hshort]
  · rw [walkFrom_of_malformed hmalformed]

/-- A run of packets that was cut off shows what the packets before the cut show. -/
theorem frames_walkFrom_cut (ps : List Packet) (k offset : Nat) :
    (walkFrom offset ((Packet.records ps).take k)).frames =
      (walkFrom offset (Packet.records (Packet.within k ps))).frames := by
  induction ps generalizing k offset with
  | nil => simp [Packet.within, Packet.records]
  | cons p ps ih =>
    by_cases hin : p.bytes.length ≤ k
    · have htake : (Packet.records (p :: ps)).take k =
          p.bytes ++ (p.padding ++ Packet.records ps).take (k - p.bytes.length) := by
        rw [Packet.records_cons, Packet.record, List.append_assoc, List.take_append,
          List.take_of_length_le hin]
      -- what is left of the padding lies before what is left of the run
      have hrest : ((p.padding ++ Packet.records ps).take (k - p.bytes.length)).drop
          p.padding.length = (Packet.records ps).take (k - p.record.length) := by
        rw [List.drop_take, List.drop_left, Packet.record, List.length_append, Nat.sub_sub]
      have hfront := p.front_bytes ((p.padding ++ Packet.records ps).take (k - p.bytes.length))
      rw [hrest] at hfront
      rw [htake, walkFrom_of_message hfront, Packet.within, if_pos hin, Packet.records_cons,
        walkFrom_of_message (p.front_record _)]
      dsimp only
      rw [ih]
    · rw [Packet.within, if_neg hin, Packet.records_cons,
        frames_walkFrom_of_short offset (p.front_cut (Packet.records ps) (by omega)),
        frames_walkFrom_of_short offset (.inl rfl)]

theorem frames_walk_cut {d : Datagram} {ps : List Packet} (hrun : d.data = Packet.records ps)
    (k : Nat) :
    (walk (d.cut k).data).frames = (walk (Packet.records (Packet.within k ps))).frames := by
  rw [Datagram.cut, hrun, walk, walk, frames_walkFrom_cut]

end Frame
end Netlink
