import Netlink.Proofs.Attribute.Forest
import Netlink.Proofs.Draft.Room
import Netlink.Proofs.Message.Packets

/-! # Messages are read back

A message that was built from a fixed part and a forest of attributes is found whole by the walk of
a datagram if its header can declare its length, and its attributes are read back as the forest,
whatever the capacity was: what does not fit was refused while the message was built. -/

namespace Netlink

/-- Writes a forest: a leaf is appended, a nest is opened, filled and closed. -/
def Forest.write : Forest → Draft → Except Error Draft
  | .nil, d => .ok d
  | .leaf type payload rest, d => do
    let d ← d.add ⟨type, payload⟩
    rest.write d
  | .nest type children rest, d => do
    let (mark, d) ← d.addNest type
    let d ← children.write d
    let (outcome, d) := d.closeNest mark
    let _ ← outcome
    rest.write d

namespace Draft

/-- What a forest adds to a draft is its records, all of which can be declared. -/
theorem eq_of_write {f : Forest} {d d' : Draft} (ha : d.body.Aligned) (h : f.write d = .ok d') :
    d' = d.extend f.encode ∧ f.Declarable := by
  induction f generalizing d d' with
  | nil =>
    rw [← Except.ok.inj h]
    exact ⟨by simp [extend, Buffer.extend, Forest.encode], trivial⟩
  | leaf type payload rest ih =>
    obtain ⟨d₁, hd₁, hrest⟩ := bind_eq_ok.mp h
    obtain ⟨rfl, hleaf⟩ := add_eq_ok ha hd₁
    have ha₁ : (d.extend (Attribute.encode ⟨type, payload⟩)).body.Aligned :=
      ha.extend_attribute _
    obtain ⟨rfl, hforest⟩ := ih ha₁ hrest
    exact ⟨extend_extend .., hleaf, hforest⟩
  | nest type children rest ihc ihr =>
    obtain ⟨⟨mark, d₁⟩, hopen, h₁⟩ := bind_eq_ok.mp h
    obtain ⟨rfl, rfl⟩ := addNest_eq_ok ha hopen
    obtain ⟨d₂, hd₂, h₂⟩ := bind_eq_ok.mp h₁
    have ha₁ : (d.extend (AttributeHeader.ofSize type 0).encode).body.Aligned :=
      ha.extend_header _
    obtain ⟨rfl, hc⟩ := ihc ha₁ hd₂
    rw [extend_extend, closeNest_extend] at h₂
    by_cases hfits : maxRecord < Attribute.headerSize + children.encode.length
    · rw [if_pos hfits] at h₂
      simp [bind, Except.bind] at h₂
    · -- the nest can be declared, and its header and children are its record
      rw [if_neg hfits] at h₂
      have hmod := children.length_encode_mod
      have hrecord :
          (AttributeHeader.ofSize type children.encode.length).encode ++ children.encode =
            Attribute.encode ⟨type, children.encode⟩ :=
        (Attribute.encode_of_mod (a := ⟨type, children.encode⟩) hmod).symm
      have hnest : Attribute.Declarable ⟨type, children.encode⟩ := by
        change Attribute.headerSize + children.encode.length < UInt16.size
        simp only [UInt16.size, maxRecord] at hfits ⊢
        omega
      have hrest : rest.write (d.extend (Attribute.encode ⟨type, children.encode⟩)) = .ok d' := by
        rw [← hrecord]
        exact h₂
      have ha₃ : (d.extend (Attribute.encode ⟨type, children.encode⟩)).body.Aligned :=
        ha.extend_attribute _
      obtain ⟨rfl, hr⟩ := ihr ha₃ hrest
      exact ⟨extend_extend .., hnest, hc, hr⟩

/-- A draft that is on the grid, and no longer than its header can declare, is a packet that needs no
padding. -/
theorem exists_packet {d : Draft} (hbase : d.body.base = headerSize) (ha : d.body.Aligned)
    (hsize : d.encode.length < UInt32.size) :
    ∃ p : Packet, p.header = d.header ∧ p.payload = d.body.bytes ∧ p.padding = [] := by
  have hlength : d.header.length.toNat = headerSize + d.body.bytes.length := by
    rw [length_encode] at hsize
    simp only [header, size, Buffer.size, hbase]
    exact UInt32.toNat_ofNat_of_lt' hsize
  have hmod : (headerSize + d.body.bytes.length) % 4 = 0 := by
    have : d.body.bytes.length % 4 = 0 := ha
    simp only [headerSize]
    omega
  let p : Packet := {
    header := d.header
    payload := d.body.bytes
    padding := []
    length_eq := hlength
    length_padding := by rw [hlength, Wire.align4_of_mod hmod]; simp }
  exact ⟨p, rfl, rfl, rfl⟩

/-- A draft is the only message in a datagram of its own if and only if its header can declare its
length. -/
theorem walk_encode_iff {d : Draft} (hbase : d.body.base = headerSize) (ha : d.body.Aligned) :
    Frame.walk d.encode = ⟨[⟨0, d.header, d.encode⟩], none, []⟩ ↔ d.encode.length < UInt32.size := by
  constructor
  · intro hwalk
    have hframe : (⟨0, d.header, d.encode⟩ : Frame) ∈ (Frame.walkFrom 0 d.encode).frames := by
      rw [Frame.walk] at hwalk
      rw [hwalk]
      exact List.mem_singleton_self _
    have hlength : d.encode.length = d.header.length.toNat := Frame.length_of_mem_walkFrom hframe
    rw [hlength]
    exact d.header.length.toNat_lt
  · intro hsize
    obtain ⟨p, hheader, hpayload, -⟩ := exists_packet hbase ha hsize
    have hbytes : d.encode = p.bytes := by rw [encode, Packet.bytes, hheader, hpayload]
    rw [hbytes, Frame.walk_bytes, hheader]

/-- With as many zeros behind it as its field can count, the header wraps around to that of a message
which is nothing but a header, and the zeros are no message. -/
theorem walk_overlong {d : Draft} (hbase : d.body.base = headerSize)
    (hzeros : d.body.bytes = Wire.zeros UInt32.size) :
    Frame.walk d.encode =
      ⟨[⟨0, d.header, d.header.encode⟩], some 0, Wire.zeros UInt32.size⟩ := by
  have hsize : d.size = headerSize + UInt32.size := by
    rw [size, Buffer.size, hbase, hzeros, Wire.length_zeros]
  have hlength : d.header.length = UInt32.ofNat headerSize := by
    rw [header, hsize]
    rfl
  rw [encode, hzeros]
  exact Frame.walk_bare_zeros hlength (by decide)

theorem addRaw_overlong (type flags : UInt16) :
    let d₀ := withCapacity type flags (2 * UInt32.size)
    d₀.addRaw (Wire.zeros UInt32.size) = .ok (d₀.extend (Wire.zeros UInt32.size)) := by
  intro d₀
  have hlength := Wire.length_zeros UInt32.size
  have hpadded : Wire.padded (Wire.zeros UInt32.size) = Wire.zeros UInt32.size :=
    Wire.padded_of_mod (by rw [hlength]; decide)
  have hroom : headerSize + UInt32.size ≤ 2 * UInt32.size := by decide
  have hadd := @Fresh.addRaw d₀ (Wire.zeros UInt32.size) (.withCapacity type flags _)
  rw [hpadded, hlength] at hadd
  exact hadd (Nat.le_trans hroom (le_capacity_withCapacity ..))

/-- **A built message is read back.** A draft that took a fixed part and then every write of a
forest is the one message in its bytes, with nothing left over, unless it is too long for its header
to declare. Whatever its length, its attributes behind the fixed part are exactly the forest, with
no bytes left over at any depth. -/
theorem readLike_of_write {d₀ d : Draft} {fixed : Bytes} {forest : Forest} (hfresh : Fresh d₀)
    (hbuilt : (d₀.addRaw fixed >>= forest.write) = .ok d) :
    (Frame.walk d.encode = ⟨[⟨0, d.header, d.encode⟩], none, []⟩ ↔ d.encode.length < UInt32.size) ∧
      ∀ sender, forest.readLike (Message.attributes ⟨sender, d.header, d.encode⟩ fixed.length) =
        some forest := by
  obtain ⟨d₁, hraw, hwrite⟩ := bind_eq_ok.mp hbuilt
  obtain rfl := addRaw_eq_ok hfresh.aligned hraw
  have ha₁ : (d₀.extend (Wire.padded fixed)).body.Aligned :=
    hfresh.aligned.extend (Wire.length_padded_mod fixed)
  obtain ⟨rfl, hforest⟩ := eq_of_write ha₁ hwrite
  constructor
  · exact walk_encode_iff hfresh.base (ha₁.extend forest.length_encode_mod)
  · intro sender
    have hbody : ((d₀.extend (Wire.padded fixed)).extend forest.encode).body.bytes =
        Wire.padded fixed ++ forest.encode := by
      simp [extend, Buffer.extend, hfresh.bytes]
    have hattributes : ((Wire.padded fixed) ++ forest.encode).drop (Wire.align4 fixed.length) =
        forest.encode := List.drop_left' (Wire.length_padded fixed)
    rw [Message.attributes, Message.payload, encode, List.drop_left' (Header.length_encode _),
      hbody, hattributes]
    exact Forest.readLike_walk_encode hforest

theorem readLike_of_write_sample :
    let forest : Forest := .leaf 1 [7, 8, 9] (.nest 0x8002 (.nest 3 .nil (.leaf 4 [] .nil)) .nil)
    let d : Draft := ⟨16, 1, 0, 0, ⟨headerSize, [1, 2, 3, 4, 5, 0, 0, 0, 7, 0, 1, 0, 7, 8, 9, 0,
      12, 0, 2, 0x80, 4, 0, 3, 0, 4, 0, 4, 0], defaultCapacity⟩⟩
    Fresh (new 16 1) ∧ ((new 16 1).addRaw [1, 2, 3, 4, 5] >>= forest.write) = .ok d ∧
      Frame.walk d.encode = ⟨[⟨0, d.header, d.encode⟩], none, []⟩ ∧
      forest.readLike (Message.attributes ⟨0, d.header, d.encode⟩ 5) = some forest := by
  intro forest d
  have hfresh : Fresh (new 16 1) := .new 16 1
  have hbuilt : ((new 16 1).addRaw [1, 2, 3, 4, 5] >>= forest.write) = .ok d := by rfl
  obtain ⟨hwalk, hread⟩ := readLike_of_write hfresh hbuilt
  exact ⟨hfresh, hbuilt, hwalk.mpr (by decide), hread 0⟩

/-- A fixed part of 2 ^ 32 bytes is written where there is room for it, but what is read back is an
empty message and 2 ^ 32 bytes that are left over. -/
theorem overlong_not_read :
    let d₀ := withCapacity 16 1 (2 * UInt32.size)
    let fixed := Wire.zeros UInt32.size
    ∃ d, Fresh d₀ ∧ (d₀.addRaw fixed >>= Forest.nil.write) = .ok d ∧
      Frame.walk d.encode = ⟨[⟨0, d.header, d.header.encode⟩], some 0, fixed⟩ ∧
      ¬ ∃ f, Frame.walk d.encode = ⟨[f], none, []⟩ := by
  intro d₀ fixed
  have hwalk := walk_overlong (d := d₀.extend fixed) rfl rfl
  refine ⟨d₀.extend fixed, .withCapacity 16 1 _, ?_, hwalk, ?_⟩
  · rw [addRaw_overlong]
    rfl
  · rintro ⟨f, hf⟩
    rw [hwalk] at hf
    cases congrArg Frame.Walk.fault hf

end Draft
end Netlink
