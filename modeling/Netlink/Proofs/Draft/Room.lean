import Netlink.Proofs.Draft.Writing

/-! # Where there is room

A write succeeds where its record can be declared and there is room for it. It begins with the
padding of what stands before it, so that it may as well be there already. -/

namespace Netlink.Draft

namespace Buffer

theorem add_of_room {b : Buffer} {piece : Bytes} (ha : b.Aligned)
    (hroom : (b.extend (Wire.padded piece)).size ≤ b.capacity) :
    b.add piece = .ok (b.extend (Wire.padded piece)) := by
  simp only [size, extend, List.length_append, Wire.length_padded] at hroom
  have hfits : ¬ b.capacity < b.base + b.front + Wire.align4 piece.length := by
    rw [ha.front]
    omega
  rw [add_eq, if_neg hfits, Wire.padded_of_mod ha]
  rfl

theorem addAttribute_of_room {b : Buffer} {a : Attribute} (ha : b.Aligned)
    (hdeclarable : a.Declarable) (hroom : (b.extend a.encode).size ≤ b.capacity) :
    b.addAttribute a = .ok (b.extend a.encode) := by
  have hfits : ¬ maxRecord < a.recordSize := by
    simp only [Attribute.Declarable, UInt16.size, maxRecord] at hdeclarable ⊢
    omega
  rw [addAttribute_eq, if_neg hfits]
  exact add_of_room ha hroom

end Buffer

theorem add_of_room {d : Draft} {a : Attribute} (ha : d.body.Aligned)
    (hdeclarable : a.Declarable) (hroom : (d.extend a.encode).size ≤ d.capacity) :
    d.add a = .ok (d.extend a.encode) := by
  rw [add_eq, Buffer.addAttribute_of_room ha hdeclarable hroom]
  rfl

theorem size_of_add {d d' : Draft} {a : Attribute} (ha : d.body.Aligned)
    (h : d.add a = .ok d') : d'.size ≤ d'.capacity := by
  obtain ⟨b, hb, rfl⟩ := add_eq_ok_iff.mp h
  exact (Buffer.addAttribute_eq_ok ha hb).2.2

theorem addNest_of_room {d : Draft} {type : UInt16} (ha : d.body.Aligned)
    (hroom : (d.extend (AttributeHeader.ofSize type 0).encode).size ≤ d.capacity) :
    d.addNest type =
      .ok (⟨d.body.bytes.length⟩, d.extend (AttributeHeader.ofSize type 0).encode) := by
  have hmark : Attribute.encode (.mark type) = (AttributeHeader.ofSize type 0).encode := by
    rw [Attribute.encode_of_mod rfl]
    exact List.append_nil _
  have hdeclarable : Attribute.Declarable (.mark type) := (by decide : 4 < UInt16.size)
  rw [← hmark] at hroom ⊢
  rw [addNest_eq, add_of_room ha hdeclarable hroom, ha.front]
  rfl

theorem size_of_addNest {d d' : Draft} {type : UInt16} {mark : Mark} (ha : d.body.Aligned)
    (h : d.addNest type = .ok (mark, d')) : d'.size ≤ d'.capacity := by
  exact size_of_add ha (addNest_eq_ok_iff.mp h).1

theorem size_extend (d : Draft) (bs : Bytes) : (d.extend bs).size = d.size + bs.length := by
  simp [size, extend, Buffer.size, Buffer.extend, Nat.add_assoc]

theorem le_capacity_withCapacity (type flags : UInt16) (n : Nat) :
    n ≤ (withCapacity type flags n).capacity := Nat.le_max_left ..

/-- A new draft takes a fixed part that it has room for. -/
theorem Fresh.addRaw {d : Draft} {data : Bytes} (h : Fresh d)
    (hroom : headerSize + (Wire.padded data).length ≤ d.capacity) :
    d.addRaw data = .ok (d.extend (Wire.padded data)) := by
  have hsize : (d.body.extend (Wire.padded data)).size ≤ d.body.capacity := by
    simp only [Buffer.size, Buffer.extend, h.base, h.bytes, List.nil_append]
    exact hroom
  rw [addRaw_eq, Buffer.add_of_room h.aligned hsize]
  rfl

/-! ## Drafts that do not end on the grid -/

/-- The draft with the padding of its last piece. -/
def pad (d : Draft) : Draft := { d with body := { d.body with bytes := Wire.padded d.body.bytes } }

theorem aligned_pad (d : Draft) : d.pad.body.Aligned := Wire.length_padded_mod d.body.bytes

theorem front_pad (d : Draft) : d.pad.body.front = d.body.front :=
  (d.aligned_pad.front).trans (Wire.length_padded d.body.bytes)

theorem add_body_pad (d : Draft) (piece : Bytes) : d.pad.body.add piece = d.body.add piece := by
  have hpadded : Wire.padded d.pad.body.bytes = Wire.padded d.body.bytes :=
    Wire.padded_of_mod d.aligned_pad
  rw [Buffer.add_eq, Buffer.add_eq, front_pad, hpadded]
  rfl

theorem addRaw_pad (d : Draft) (data : Bytes) : d.pad.addRaw data = d.addRaw data := by
  rw [addRaw_eq, addRaw_eq, add_body_pad]
  rfl

theorem add_pad (d : Draft) (a : Attribute) : d.pad.add a = d.add a := by
  rw [add_eq, add_eq, Buffer.addAttribute_eq, Buffer.addAttribute_eq, add_body_pad]
  rfl

theorem addNest_pad (d : Draft) (type : UInt16) : d.pad.addNest type = d.addNest type := by
  rw [addNest_eq, addNest_eq, add_pad, front_pad]

theorem openCompat_pad {d d' : Draft} {type : UInt16} {data : Bytes} {mark : CompatMark}
    (h : d.openCompat type data = (.ok mark, d')) :
    d.pad.openCompat type data = (.ok mark, d') := by
  rw [openCompat_eq_ok_iff] at h ⊢
  rwa [add_pad, front_pad]

end Netlink.Draft
