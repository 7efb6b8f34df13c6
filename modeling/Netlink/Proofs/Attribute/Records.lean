import Netlink.Attribute.Walk
import Netlink.Proofs.Wire.Records

/-! # Records of attributes

A record that its length field can declare is read back, whatever follows it; so a run of such
records is walked to its end. -/

namespace Netlink

theorem AttributeHeader.ofBytes_encode_append (h : AttributeHeader) (bs : Bytes) :
    ofBytes (h.encode ++ bs) = h := by
  have second := Wire.drop_le16_append h.length (Wire.le16 h.type ++ bs) 0
  simp only [Nat.zero_add, List.drop_zero] at second
  simp only [ofBytes, encode, List.append_assoc, Wire.word16_le16_append, second]

theorem AttributeHeader.ofBytes_encode (h : AttributeHeader) : ofBytes h.encode = h := by
  simpa using ofBytes_encode_append h []

namespace Attribute

/-- The length field can declare the record. -/
def Declarable (a : Attribute) : Prop := a.recordSize < UInt16.size

/-- A payload that leaves room for the header in what the length field can declare. -/
theorem declarable_of_length {a : Attribute} (h : a.payload.length ≤ 65531) : a.Declarable :=
  Nat.lt_succ_of_le (Nat.add_le_add_left h headerSize)

theorem toNat_length_ofSize {a : Attribute} (h : a.Declarable) :
    (AttributeHeader.ofSize a.type a.payload.length).length.toNat = a.recordSize :=
  UInt16.toNat_ofNat_of_lt' h

/-- A payload on the grid needs no padding. -/
theorem encode_of_mod {a : Attribute} (h : a.payload.length % 4 = 0) :
    a.encode = (AttributeHeader.ofSize a.type a.payload.length).encode ++ a.payload := by
  refine Wire.padded_of_mod ?_
  simp only [List.length_append, AttributeHeader.length_encode, headerSize]
  omega

theorem next?_encode_append {a : Attribute} (h : a.Declarable) (rest : Bytes) :
    next? (a.encode ++ rest) = some (a, rest) := by
  let header := AttributeHeader.ofSize a.type a.payload.length
  have hlength : header.length.toNat = headerSize + a.payload.length := toNat_length_ofSize h
  have hsize : (header.encode ++ a.payload).length = headerSize + a.payload.length := by simp
  let padding := Wire.zeros (Wire.align4 (headerSize + a.payload.length)
    - (headerSize + a.payload.length))
  have hbytes : a.encode ++ rest = header.encode ++ (a.payload ++ (padding ++ rest)) := by
    simp only [encode, Wire.padded, hsize, List.append_assoc, header, padding]
  rw [hbytes, next?, Wire.split?_append (AttributeHeader.length_encode header)]
  dsimp only
  rw [AttributeHeader.ofBytes_encode, hlength, if_neg (by omega),
    Wire.split?_append (Nat.add_sub_cancel_left ..).symm]
  dsimp only
  rw [Wire.drop_padding (Wire.length_zeros _)]
  rfl

theorem encodeAll_cons (a : Attribute) (as : List Attribute) :
    encodeAll (a :: as) = a.encode ++ encodeAll as := List.flatMap_cons

theorem encodeAll_append (as bs : List Attribute) :
    encodeAll (as ++ bs) = encodeAll as ++ encodeAll bs := List.flatMap_append

theorem encodeAll_singleton (a : Attribute) : encodeAll [a] = a.encode := List.append_nil _

theorem length_encodeAll_mod (as : List Attribute) : (encodeAll as).length % 4 = 0 := by
  induction as with
  | nil => rfl
  | cons a as ih =>
    have hrecord := Wire.align4_mod a.recordSize
    rw [encodeAll_cons, List.length_append, length_encode]
    omega

/-- A run of records is walked to its end, and what begins with none is left behind it. -/
theorem walk_encodeAll_append {as : List Attribute} (h : ∀ a ∈ as, a.Declarable) {rest : Bytes}
    (hend : next? rest = none) : walk (encodeAll as ++ rest) = ⟨as, rest⟩ := by
  induction as with
  | nil => exact walk_of_next?_none hend
  | cons a as ih =>
    have hnext := next?_encode_append (h a (by simp)) (encodeAll as ++ rest)
    have hrest := ih fun b hb => h b (List.mem_cons_of_mem a hb)
    rw [encodeAll_cons, List.append_assoc, walk_of_next?_some hnext, hrest]

theorem walk_encodeAll {as : List Attribute} (h : ∀ a ∈ as, a.Declarable) :
    walk (encodeAll as) = ⟨as, []⟩ := by
  have hend : next? [] = none := by rfl
  have hwalk := walk_encodeAll_append h hend
  rwa [List.append_nil] at hwalk

/-- A list whose records are short enough together has no record that is too long. -/
theorem declarable_of_encodeAll {as : List Attribute} (h : (encodeAll as).length < UInt16.size) :
    ∀ a ∈ as, a.Declarable := by
  intro a ha
  obtain ⟨front, back, rfl⟩ := List.append_of_mem ha
  have hpad := Wire.le_align4 a.recordSize
  rw [encodeAll_append, encodeAll_cons, List.length_append, List.length_append, length_encode] at h
  unfold Declarable
  omega

/-- A payload that is as long as the number is read as a whole. -/
theorem number_of_length {α : Type} {a : Attribute} {size : Nat} (h : a.payload.length = size)
    (width : Scalar) (read : Bytes → α) : a.number width size read = .ok (read a.payload) := by
  have hsplit : Wire.split? size a.payload = some (a.payload, []) := by
    rw [← Wire.split?_append h, List.append_nil]
  rw [number, hsplit]

theorem u16_ofU16 (type v : UInt16) : (ofU16 type v).u16 = .ok v := by
  have hback := Wire.word16_le16_append v []
  rw [List.append_nil] at hback
  rw [u16, number_of_length (Wire.length_le16 v)]
  exact congrArg Except.ok hback

theorem u32_ofU32 (type : UInt16) (v : UInt32) : (ofU32 type v).u32 = .ok v := by
  have hback := Wire.word32_le32_append v []
  rw [List.append_nil] at hback
  rw [u32, number_of_length (Wire.length_le32 v)]
  exact congrArg Except.ok hback

theorem u8_ofU8 (type : UInt16) (v : UInt8) : (ofU8 type v).u8 = .ok v := rfl

theorem u64_ofU64 (type : UInt16) (v : UInt64) : (ofU64 type v).u64 = .ok v := by
  rw [u64, number_of_length (Wire.length_le64 v)]
  exact congrArg Except.ok (Wire.word64_le64 v)

theorem u16be_ofU16be (type v : UInt16) : (ofU16be type v).u16be = .ok v := by
  rw [u16be, number_of_length (Wire.length_be16 v)]
  exact congrArg Except.ok (Wire.ofBE_be16 v)

theorem u32be_ofU32be (type : UInt16) (v : UInt32) : (ofU32be type v).u32be = .ok v := by
  rw [u32be, number_of_length (Wire.length_be32 v)]
  exact congrArg Except.ok (Wire.ofBE_be32 v)

/-- The same four bytes, read in two's complement. -/
theorem i32_ofU32 (type : UInt16) (v : UInt32) : (ofU32 type v).i32 = .ok v.toInt32 := by
  have hback := Wire.word32_le32_append v []
  rw [List.append_nil] at hback
  rw [i32, number_of_length (Wire.length_le32 v)]
  exact congrArg (Except.ok ∘ UInt32.toInt32) hback

end Attribute
end Netlink
