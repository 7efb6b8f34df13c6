import Netlink.Wire.Bytes

/-! # Records on the grid

A record followed by others is taken off the front exactly, and padding never moves what already
lies on the grid. These are the facts that writers and readers of records share. -/

namespace Netlink.Wire

theorem split?_append {n : Nat} {front rest : Bytes} (h : front.length = n) :
    split? n (front ++ rest) = some (front, rest) :=
  split?_eq_some_iff.mpr ⟨rfl, h⟩

theorem padded_of_mod {bs : Bytes} (h : bs.length % 4 = 0) : padded bs = bs := by
  simp [padded, zeros, align4_of_mod h]

theorem length_padded_mod (bs : Bytes) : (padded bs).length % 4 = 0 := by
  rw [length_padded]
  exact align4_mod _

/-- What follows the padding of a record begins where the padding ends. -/
theorem drop_padding {size : Nat} {padding rest : Bytes} (h : padding.length = align4 size - size) :
    (padding ++ rest).drop (align4 size - size) = rest :=
  List.drop_left' h

theorem length_zeros (n : Nat) : (zeros n).length = n := List.length_replicate

theorem word32_take (bs : Bytes) {n : Nat} (h : 4 ≤ n) : word32 (bs.take n) = word32 bs := by
  rw [word32, word32, List.take_take, Nat.min_eq_left h]

/-- Bytes are the digits of the number that is read from them. -/
theorem toLE_ofLE (bs : Bytes) : toLE bs.length (ofLE bs) = bs := by
  induction bs with
  | nil => rfl
  | cons b bs ih =>
    have hb := b.toNat_lt
    have hfirst : UInt8.ofNat (b.toNat + 256 * ofLE bs) = b := by
      apply UInt8.toNat_inj.mp
      rw [UInt8.toNat_ofNat']
      omega
    have hrest : (b.toNat + 256 * ofLE bs) / 256 = ofLE bs := by omega
    rw [List.length_cons, ofLE, toLE, hfirst, hrest, ih]

theorem le16_word16 {bs : Bytes} (h : 2 ≤ bs.length) : le16 (word16 bs) = bs.take 2 := by
  have hlength : (bs.take 2).length = 2 := by
    rw [List.length_take]
    omega
  have hsmall := ofLE_lt (bs.take 2)
  rw [hlength] at hsmall
  have hback : (UInt16.ofNat (ofLE (bs.take 2))).toNat = ofLE (bs.take 2) :=
    UInt16.toNat_ofNat_of_lt' hsmall
  have hdigits := toLE_ofLE (bs.take 2)
  rw [hlength] at hdigits
  rw [le16, word16, hback, hdigits]

theorem le32_word32 {bs : Bytes} (h : 4 ≤ bs.length) : le32 (word32 bs) = bs.take 4 := by
  have hlength : (bs.take 4).length = 4 := by
    rw [List.length_take]
    omega
  have hsmall := ofLE_lt (bs.take 4)
  rw [hlength] at hsmall
  have hback : (UInt32.ofNat (ofLE (bs.take 4))).toNat = ofLE (bs.take 4) :=
    UInt32.toNat_ofNat_of_lt' hsmall
  have hdigits := toLE_ofLE (bs.take 4)
  rw [hlength] at hdigits
  rw [le32, word32, hback, hdigits]

theorem length_le64 (v : UInt64) : (le64 v).length = 8 := length_toLE ..

theorem length_be16 (v : UInt16) : (be16 v).length = 2 := length_toBE ..

theorem length_be32 (v : UInt32) : (be32 v).length = 4 := length_toBE ..

theorem word64_le64 (v : UInt64) : word64 (le64 v) = v := by
  have hwhole : (le64 v).take 8 = le64 v := List.take_of_length_le (Nat.le_of_eq (length_le64 v))
  rw [word64, hwhole, le64, ofLE_toLE_of_lt v.toNat_lt, UInt64.ofNat_toNat]

theorem ofBE_be16 (v : UInt16) : UInt16.ofNat (ofBE (be16 v)) = v := by
  have hdigits : ofBE (be16 v) = v.toNat := by
    rw [be16, ofBE_toBE]
    exact Nat.mod_eq_of_lt v.toNat_lt
  rw [hdigits, UInt16.ofNat_toNat]

theorem ofBE_be32 (v : UInt32) : UInt32.ofNat (ofBE (be32 v)) = v := by
  have hdigits : ofBE (be32 v) = v.toNat := by
    rw [be32, ofBE_toBE]
    exact Nat.mod_eq_of_lt v.toNat_lt
  rw [hdigits, UInt32.ofNat_toNat]

/-- Padding a record and what follows it completes the record's own padding, and pads what is behind
that. -/
theorem padded_append (record rest : Bytes) :
    let gap := align4 record.length - record.length
    padded (record ++ rest) =
      record ++ (rest.take gap ++ zeros (gap - rest.length)) ++ padded (rest.drop gap) := by
  intro gap
  have halign := le_align4 record.length
  have hlength : (record ++ rest).length = record.length + rest.length := List.length_append
  rcases Nat.le_total gap rest.length with hlong | hshort
  · have hdrop : (rest.drop gap).length = rest.length - gap := List.length_drop
    have hnone : gap - rest.length = 0 := by omega
    have hgap : align4 (record ++ rest).length - (record ++ rest).length =
        align4 (rest.drop gap).length - (rest.drop gap).length := by
      have hgrid := align4_mod record.length
      rw [hlength, hdrop]
      simp only [gap] at hlong ⊢
      unfold align4 at *
      omega
    rw [padded, hgap, hnone, padded]
    calc record ++ rest ++ zeros (align4 (rest.drop gap).length - (rest.drop gap).length)
      _ = record ++ (rest.take gap ++ rest.drop gap) ++
            zeros (align4 (rest.drop gap).length - (rest.drop gap).length) := by
          rw [List.take_append_drop]
      _ = record ++ (rest.take gap ++ zeros 0) ++ (rest.drop gap ++
            zeros (align4 (rest.drop gap).length - (rest.drop gap).length)) := by
          simp only [zeros, List.replicate_zero, List.append_nil, List.append_assoc]
  · have htake : rest.take gap = rest := List.take_of_length_le hshort
    have hdrop : rest.drop gap = [] := List.drop_of_length_le hshort
    have hgap : align4 (record ++ rest).length - (record ++ rest).length = gap - rest.length := by
      rw [hlength]
      simp only [gap] at hshort ⊢
      unfold align4 at *
      omega
    rw [padded, hgap, htake, hdrop]
    simp [padded, zeros, align4]

end Netlink.Wire
