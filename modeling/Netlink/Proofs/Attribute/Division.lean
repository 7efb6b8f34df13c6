import Netlink.Proofs.Attribute.Records

/-! # How a list divides into records

The walk of a list takes the records that stand in it one behind another, each as long as it declares
and each with its padding, and leaves the bytes behind the last. If these are none and all padding is
there and zero, the attributes have the list for their encoding. -/

namespace Netlink

theorem AttributeHeader.encode_ofBytes {bs : Bytes} (h : bs.length = Attribute.headerSize) :
    (ofBytes bs).encode = bs := by
  simp only [Attribute.headerSize] at h
  have hall : bs.take 4 = bs := List.take_of_length_le (by omega)
  rw [encode, ofBytes, Wire.le16_word16 (by omega), Wire.le16_word16 (by simp; omega),
    ← List.take_add, hall]

namespace Attribute

/-- The header with which the bytes begin, if there are enough of them. -/
def front (bs : Bytes) : AttributeHeader := AttributeHeader.ofBytes (bs.take headerSize)

/-- No record begins the bytes: there are fewer than four of them, or the length they declare is below
four or above what there is. -/
def Stuck (bs : Bytes) : Prop :=
  bs.length < headerSize ∨ (front bs).length.toNat < headerSize ∨
    bs.length < (front bs).length.toNat

/-- The attribute is that of the record at an offset, which is as long as it declares. -/
structure StandsAt (data : Bytes) (offset : Nat) (a : Attribute) : Prop where
  type : a.type = (front (data.drop offset)).type
  declared : (front (data.drop offset)).length.toNat = a.recordSize
  inside : offset + a.recordSize ≤ data.length
  payload : a.payload = ((data.drop offset).take a.recordSize).drop headerSize

/-- The records of the attributes stand in the data one behind another, each with its padding, from
one offset to another. The padding of the last may reach beyond the data. -/
inductive Path (data : Bytes) : Nat → List Attribute → Nat → Prop
  | nil (offset : Nat) : Path data offset [] offset
  | cons {offset stop : Nat} {a : Attribute} {as : List Attribute} (stands : StandsAt data offset a)
      (behind : Path data (offset + Wire.align4 a.recordSize) as stop) :
      Path data offset (a :: as) stop

/-- All bytes between the records are zero. -/
def ZeroPadded (data : Bytes) : Nat → List Attribute → Prop
  | _, [] => True
  | offset, a :: as =>
    (∀ b ∈ (data.drop (offset + a.recordSize)).take (Wire.align4 a.recordSize - a.recordSize),
      b = 0) ∧ ZeroPadded data (offset + Wire.align4 a.recordSize) as

/-! ## One record -/

theorem next?_spec (bs : Bytes) :
    let length := (front bs).length.toNat
    match next? bs with
    | none => Stuck bs
    | some (a, rest) =>
      headerSize ≤ length ∧ length ≤ bs.length ∧
        a = ⟨(front bs).type, (bs.take length).drop headerSize⟩ ∧
        rest = bs.drop (Wire.align4 length) := by
  intro length
  unfold next?
  cases hfront : Wire.split? headerSize bs with
  | none => exact .inl (Wire.split?_eq_none_iff.mp hfront)
  | some split =>
    obtain ⟨header, body⟩ := split
    obtain ⟨hbs, hheader⟩ := Wire.split?_eq_some_iff.mp hfront
    have hsame : AttributeHeader.ofBytes header = front bs := by
      rw [front, hbs, List.take_left' hheader]
    dsimp only
    rw [hsame]
    by_cases hlow : length < headerSize
    · rw [if_pos hlow]
      exact .inr (.inl hlow)
    · rw [if_neg hlow]
      cases hsplit : Wire.split? (length - headerSize) body with
      | none =>
        have hshort := Wire.split?_eq_none_iff.mp hsplit
        have hlength : bs.length = headerSize + body.length := by
          rw [hbs, List.length_append, hheader]
        have hless : bs.length < length := by omega
        exact .inr (.inr hless)
      | some split =>
        obtain ⟨payload, tail⟩ := split
        obtain ⟨hbody, hpayload⟩ := Wire.split?_eq_some_iff.mp hsplit
        have hrecord : (header ++ payload).length = length := by
          rw [List.length_append, hheader, hpayload]
          omega
        have hbs' : bs = header ++ payload ++ tail := by
          rw [hbs, hbody, List.append_assoc]
        have halign := Wire.le_align4 length
        refine ⟨Nat.le_of_not_lt hlow, ?_, ?_, ?_⟩
        · rw [hbs', List.length_append, hrecord]
          exact Nat.le_add_right ..
        · rw [hbs', List.take_left' hrecord, List.drop_left' hheader, ← hbs']
        · rw [hbs', List.drop_append, hrecord,
            List.drop_of_length_le (Nat.le_trans (Nat.le_of_eq hrecord) halign), List.nil_append,
            ← hbs']

theorem next?_eq_none_iff {bs : Bytes} : next? bs = none ↔ Stuck bs := by
  have hspec := next?_spec bs
  cases hnext : next? bs with
  | none =>
    rw [hnext] at hspec
    exact ⟨fun _ => hspec, fun _ => rfl⟩
  | some taken =>
    rw [hnext] at hspec
    obtain ⟨hlow, hhigh, -, -⟩ := hspec
    refine ⟨fun hnone => absurd hnone (Option.some_ne_none _), fun hstuck => ?_⟩
    simp only [Stuck] at hstuck
    omega

/-- The first record of what is left stands where that begins. -/
theorem standsAt_of_next? {data rest : Bytes} {offset : Nat} {a : Attribute}
    (h : next? (data.drop offset) = some (a, rest)) :
    StandsAt data offset a ∧ rest = data.drop (offset + Wire.align4 a.recordSize) := by
  have hspec := next?_spec (data.drop offset)
  rw [h] at hspec
  obtain ⟨hlow, hhigh, rfl, rfl⟩ := hspec
  have hsize : recordSize ⟨(front (data.drop offset)).type,
      ((data.drop offset).take (front (data.drop offset)).length.toNat).drop headerSize⟩ =
      (front (data.drop offset)).length.toNat := by
    rw [recordSize, List.length_drop, List.length_take_of_le hhigh]
    omega
  have hpositive : 0 < headerSize := by decide
  rw [List.length_drop] at hhigh
  refine ⟨⟨rfl, hsize.symm, ?_, ?_⟩, ?_⟩
  · rw [hsize]
    omega
  · rw [hsize]
  · rw [hsize, List.drop_drop]

theorem next?_of_standsAt {data : Bytes} {offset : Nat} {a : Attribute} (h : StandsAt data offset a) :
    next? (data.drop offset) = some (a, data.drop (offset + Wire.align4 a.recordSize)) := by
  have hspec := next?_spec (data.drop offset)
  cases hnext : next? (data.drop offset) with
  | none =>
    rw [hnext] at hspec
    have hinside := h.inside
    have hsize : headerSize ≤ a.recordSize := Nat.le_add_right ..
    simp only [Stuck, h.declared, List.length_drop] at hspec
    omega
  | some taken =>
    rw [hnext] at hspec
    obtain ⟨b, rest⟩ := taken
    obtain ⟨-, -, hattribute, hrest⟩ := hspec
    rw [h.declared] at hattribute hrest
    rw [hrest, hattribute, ← h.type, ← h.payload, List.drop_drop]

/-! ## The whole list -/

theorem path_walk (data : Bytes) (offset : Nat) :
    ∃ stop, Path data offset (walk (data.drop offset)).attributes stop ∧
      (walk (data.drop offset)).rest = data.drop stop ∧ Stuck (data.drop stop) := by
  generalize hbs : data.drop offset = bs
  fun_induction walk bs generalizing offset with
  | case1 bs hnone =>
    obtain rfl := hbs
    exact ⟨offset, .nil offset, rfl, next?_eq_none_iff.mp hnone⟩
  | case2 bs a rest hsome tail ih =>
    obtain rfl := hbs
    obtain ⟨hstands, hrest⟩ := standsAt_of_next? hsome
    obtain ⟨stop, hpath, hleft, hstuck⟩ := ih _ hrest.symm
    exact ⟨stop, .cons hstands hpath, hleft, hstuck⟩

theorem walk_of_path {data : Bytes} {offset stop : Nat} {as : List Attribute}
    (h : Path data offset as stop) (hstuck : Stuck (data.drop stop)) :
    walk (data.drop offset) = ⟨as, data.drop stop⟩ := by
  induction h with
  | nil offset => exact walk_of_next?_none (next?_eq_none_iff.mpr hstuck)
  | cons stands behind ih => rw [walk_of_next?_some (next?_of_standsAt stands), ih hstuck]

/-- A walk is known by its path. -/
theorem walk_eq_iff {bs : Bytes} {w : Walk} :
    walk bs = w ↔ ∃ stop, Path bs 0 w.attributes stop ∧ w.rest = bs.drop stop ∧ Stuck w.rest := by
  constructor
  · rintro rfl
    obtain ⟨stop, hpath, hrest, hstuck⟩ := path_walk bs 0
    exact ⟨stop, hpath, hrest, (show (walk bs).rest = _ from hrest) ▸ hstuck⟩
  · rintro ⟨stop, hpath, hrest, hstuck⟩
    rw [hrest] at hstuck
    have hwalk := walk_of_path hpath hstuck
    rw [← hrest] at hwalk
    exact hwalk

theorem Path.declarable {data : Bytes} {offset stop : Nat} {as : List Attribute}
    (h : Path data offset as stop) : ∀ a ∈ as, a.Declarable := by
  induction h with
  | nil offset => exact List.forall_mem_nil _
  | cons stands behind ih =>
    have hfirst : Declarable _ := stands.declared ▸ UInt16.toNat_lt _
    exact List.forall_mem_cons.mpr ⟨hfirst, ih⟩

theorem declarable_of_mem_walk {bs : Bytes} {a : Attribute} (h : a ∈ (walk bs).attributes) :
    a.Declarable := by
  obtain ⟨stop, hpath, -⟩ := path_walk bs 0
  exact hpath.declarable a h

/-! ## Back to the bytes -/

/-- A record is its attribute's header and payload. -/
theorem take_of_standsAt {data : Bytes} {offset : Nat} {a : Attribute} (h : StandsAt data offset a) :
    (data.drop offset).take a.recordSize =
      (AttributeHeader.ofSize a.type a.payload.length).encode ++ a.payload := by
  have hinside := h.inside
  have hsize : headerSize ≤ a.recordSize := Nat.le_add_right ..
  have hlength : ((data.drop offset).take headerSize).length = headerSize := by
    rw [List.length_take, List.length_drop]
    omega
  have hheader : AttributeHeader.ofSize a.type a.payload.length = front (data.drop offset) := by
    have hdeclared : UInt16.ofNat a.recordSize = (front (data.drop offset)).length := by
      rw [← h.declared, UInt16.ofNat_toNat]
    rw [AttributeHeader.ofSize, h.type]
    exact congrArg (AttributeHeader.mk · _) hdeclared
  have hfirst : (front (data.drop offset)).encode =
      ((data.drop offset).take a.recordSize).take headerSize := by
    rw [front, AttributeHeader.encode_ofBytes hlength, List.take_take, Nat.min_eq_left hsize]
  rw [hheader, hfirst]
  conv => rhs; rhs; rw [h.payload]
  rw [List.take_append_drop]

/-- Where no padding is missing and all of it is zero, the attributes have the data for their
encoding. -/
theorem encodeAll_of_path {data : Bytes} {offset stop : Nat} {as : List Attribute}
    (h : Path data offset as stop) (hgrid : data.length % 4 = 0) (hoffset : offset % 4 = 0)
    (hzero : ZeroPadded data offset as) :
    data.drop offset = encodeAll as ++ data.drop stop := by
  induction h with
  | nil offset => rfl
  | @cons offset stop a as stands behind ih =>
    have hinside := stands.inside
    have hmod := Wire.align4_mod a.recordSize
    have hle := Wire.le_align4 a.recordSize
    have hlt := Wire.align4_lt a.recordSize
    let gap := Wire.align4 a.recordSize - a.recordSize
    have hgap : (data.drop (offset + a.recordSize)).take gap = Wire.zeros gap := by
      refine List.eq_replicate_iff.mpr ⟨?_, hzero.1⟩
      rw [List.length_take, List.length_drop]
      omega
    have hencode : a.encode = (data.drop offset).take (Wire.align4 a.recordSize) := by
      have hsize : (data.drop offset).take a.recordSize = _ := take_of_standsAt stands
      have hrecord : ((AttributeHeader.ofSize a.type a.payload.length).encode ++ a.payload).length =
          a.recordSize := by simp [recordSize]
      rw [encode, Wire.padded, hrecord, ← hsize, ← hgap, ← List.drop_drop, ← List.take_add]
      congr 1
      omega
    rw [encodeAll_cons, List.append_assoc, ← ih (by omega) hzero.2, hencode, ← List.drop_drop,
      List.take_append_drop]

/-- A list that is walked to its end, with all padding there and zero, is the encoding of its
attributes. -/
theorem encodeAll_walk {bs : Bytes} (hend : (walk bs).deficit = 0) (hgrid : bs.length % 4 = 0)
    (hzero : ZeroPadded bs 0 (walk bs).attributes) : encodeAll (walk bs).attributes = bs := by
  obtain ⟨stop, hpath, hrest, -⟩ := walk_eq_iff.mp (rfl : walk bs = walk bs)
  have hbytes := encodeAll_of_path hpath hgrid rfl hzero
  rw [← hrest, List.eq_nil_of_length_eq_zero hend, List.append_nil] at hbytes
  exact hbytes.symm

end Attribute
end Netlink
