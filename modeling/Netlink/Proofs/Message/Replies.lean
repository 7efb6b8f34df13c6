import Netlink.Message.Ack
import Netlink.Message.Frame
import Netlink.Proofs.Wire.Records

/-! # What a reply says

DONE and ERROR say how something ended by a code right behind the header. An ERROR that is too short
for its fixed part says nothing. -/

namespace Netlink

/-- The number in the first four bytes behind the header. -/
def Message.code (m : Message) : Int32 := (Wire.word32 m.payload).toInt32

theorem Message.code_of_split? {m : Message} {front rest : Bytes}
    (h : Wire.split? 4 m.payload = some (front, rest)) : (Wire.word32 front).toInt32 = m.code := by
  obtain ⟨hpayload, hfront⟩ := Wire.split?_eq_some_iff.mp h
  rw [code, ← Wire.word32_take m.payload (Nat.le_refl 4), hpayload, List.take_left' hfront]

/-- The failure that an ERROR message stands for if it is one, with the text in its attributes. -/
def Message.refusal (m : Message) : Error :=
  .kernel (Error.number m.code) ((Ack.ofError m.header m.payload).value.bind (·.text))

/-- Every other code has a negation. -/
theorem Error.least_lt_toInt {code : Int32} (h : code ≠ Int32.minValue) :
    -2147483648 < code.toInt := by
  have hleast : Int32.minValue.toInt = -2147483648 := by decide
  have hlow := code.minValue_le_toInt
  have hother : code.toInt ≠ Int32.minValue.toInt := fun hsame => h (Int32.toInt_inj.mp hsame)
  rw [hleast] at hlow hother
  omega

namespace ErrorReply

theorem decode_of_short {payload : Bytes} (h : payload.length < size) :
    decode payload = .error (.truncated size payload.length) := by
  rw [decode, Wire.split?_eq_none_iff.mpr h]

theorem decode_of_long {payload : Bytes} (h : ¬ payload.length < size) :
    decode payload = .ok (ofBytes (payload.take size)) := by
  cases hsplit : Wire.split? size payload with
  | none => exact absurd (Wire.split?_eq_none_iff.mp hsplit) h
  | some parts =>
    obtain ⟨front, rest⟩ := parts
    obtain ⟨hpayload, hfront⟩ := Wire.split?_eq_some_iff.mp hsplit
    rw [decode, hsplit, hpayload, List.take_left' hfront]

theorem code_ofBytes_take (payload : Bytes) :
    (ofBytes (payload.take size)).code = (Wire.word32 payload).toInt32 := by
  rw [ofBytes, Wire.word32_take _ (by decide)]

end ErrorReply

/-! ## What reading a reply reports -/

/-- Reading attributes reports no more than bytes that are left over. -/
theorem Attribute.Table.log_read {max : UInt16} {bs : Bytes} {e : Event}
    (h : e ∈ (read max bs).log) : ∃ deficit declared, e = .trailingBytes deficit declared := by
  simp only [read, readClearing, Attribute.deficitReport] at h
  split at h
  · cases h
  · exact ⟨_, _, List.mem_singleton.mp h⟩

namespace Ack

theorem log_ofDone {header : Header} {payload : Bytes} {e : Event}
    (h : e ∈ (ofDone header payload).log) :
    ∃ deficit declared, e = .trailingBytes deficit declared := by
  unfold ofDone at h
  split at h
  · split at h
    · cases h
    · simp only [Logged.log_bind, Logged.log_pure, List.append_nil] at h
      exact Attribute.Table.log_read h
  · cases h

theorem log_ofError {header : Header} {payload : Bytes} {e : Event}
    (h : e ∈ (ofError header payload).log) :
    (∃ deficit declared, e = .trailingBytes deficit declared) ∨ ∃ offset, e = .badOffset offset := by
  unfold ofError at h
  split at h
  · split at h
    · cases h
    · simp only [Logged.log_bind, Logged.log_pure, List.append_nil, List.mem_append] at h
      rcases h with h | h
      · exact .inl (Attribute.Table.log_read h)
      · right
        unfold offsetOf at h
        split at h
        · cases h
        · split at h
          · simp only [Logged.tell, Logged.log_bind, Logged.log_pure, List.append_nil,
              List.mem_singleton] at h
            exact ⟨_, h⟩
          · cases h
  · cases h

/-- The attributes of an ERROR go with its code. -/
theorem code_ofError {header : Header} {payload : Bytes} {reply : ErrorReply} {a : Ack}
    (hreply : ErrorReply.decode payload = .ok reply)
    (h : (ofError header payload).value = some a) : a.code = reply.code := by
  unfold ofError at h
  split at h
  · rw [hreply] at h
    simp only [Logged.value_bind, Logged.value_pure, Option.some.injEq] at h
    rw [← h]
  · cases h

theorem code_ofDone {header : Header} {payload front rest : Bytes} {a : Ack}
    (hsplit : Wire.split? 4 payload = some (front, rest))
    (h : (ofDone header payload).value = some a) : a.code = (Wire.word32 front).toInt32 := by
  unfold ofDone at h
  split at h
  · rw [hsplit] at h
    simp only [Logged.value_bind, Logged.value_pure, Option.some.injEq] at h
    rw [← h]
  · cases h

end Ack
end Netlink
