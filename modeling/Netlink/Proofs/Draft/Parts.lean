import Netlink.Proofs.Draft.Aside

/-! # The parts of a message

Behind the fixed part of a message stand attributes, and each of them gets there in one of three ways:
with its payload as it is, as a nest that is opened, filled and closed, or as a tree that was built
aside. Whichever it is, the message grows by the record of one attribute. -/

namespace Netlink

namespace Forest

variable {f : Forest} {type : UInt16} {capacity : Nat} {t : Draft.Tree}

/-- A tree that was grown from nothing is the record of the marked forest, whatever its capacity was:
what does not fit was refused while it grew. -/
theorem eq_of_grow (h : f.grow (.new type capacity) = .ok t) :
    t.type = type ∧ t.children.bytes = f.marked.encode ∧ f.marked.Declarable ∧
      Attribute.Declarable ⟨type, f.marked.encode⟩ := by
  let d : Draft := ⟨0, 0, 0, 0, (Draft.Tree.new type capacity).children⟩
  have ha : d.body.Aligned := rfl
  have hroom : d.size ≤ d.capacity := Nat.le_max_left ..
  rw [grow_eq f (d := d) rfl] at h
  cases hwrite : f.marked.write d with
  | error e =>
    rw [hwrite] at h
    cases h
  | ok d' =>
    rw [hwrite] at h
    cases h
    obtain ⟨rfl, hforest, hsize⟩ := (write_eq_ok_iff ha hroom).mp hwrite
    refine ⟨rfl, rfl, hforest, ?_⟩
    have hcapacity : (d.extend f.marked.encode).capacity =
        max Attribute.headerSize (min capacity Draft.maxRecord) := rfl
    have hbare : d.size = Attribute.headerSize := rfl
    rw [hcapacity, Draft.size_extend, hbare] at hsize
    simp only [Attribute.Declarable, Attribute.recordSize, Attribute.headerSize, Draft.maxRecord,
      UInt16.size] at hsize ⊢
    omega

end Forest

namespace Draft

/-- A part of a message behind its fixed part, by the way it is written. -/
inductive Part where
  /-- An attribute that is appended with its payload. -/
  | leaf (a : Attribute)
  /-- A nest that is opened, filled and closed. -/
  | nest (type : UInt16) (children : Forest)
  /-- A tree that is built aside and appended. -/
  | tree (type : UInt16) (capacity : Nat) (children : Forest)

namespace Part

def write : Part → Draft → Except Error Draft
  | leaf a, d => d.add a
  | nest type children, d => (Forest.nest type children .nil).write d
  | tree type capacity children, d => children.grow (.new type capacity) >>= d.addTree

/-- What the part is once it has been written. The nests in a tree that was built aside are marked. -/
def written : Part → Attribute
  | leaf a => a
  | nest type children => ⟨type, children.encode⟩
  | tree type _ children => ⟨type, children.marked.encode⟩

end Part

/-- Adds a fixed part and the parts behind it. -/
def build (d : Draft) (fixed : Bytes) (ps : List Part) : Except Error Draft :=
  d.addRaw fixed >>= ps.foldlM fun d p => p.write d

namespace Part

/-- A part adds its record to a draft. -/
theorem eq_of_write {p : Part} {d d' : Draft} (ha : d.body.Aligned) (h : p.write d = .ok d') :
    d' = d.extend p.written.encode ∧ p.written.Declarable := by
  cases p with
  | leaf a => exact add_eq_ok ha h
  | nest type children =>
    obtain ⟨rfl, hnest, -⟩ := Draft.eq_of_write ha h
    have hencode : (Forest.nest type children .nil).encode =
        Attribute.encode ⟨type, children.encode⟩ := List.append_nil _
    rw [hencode]
    exact ⟨rfl, hnest⟩
  | tree type capacity children =>
    obtain ⟨t, hgrow, happend⟩ := bind_eq_ok.mp h
    obtain ⟨htype, hbytes, -, hrecord⟩ := Forest.eq_of_grow hgrow
    have hencode : t.encode = Attribute.encode ⟨type, children.marked.encode⟩ := by
      rw [Forest.encode_record, Tree.encode, htype, hbytes]
    have hmod : t.encode.length % 4 = 0 := by
      rw [hencode, Attribute.length_encode]
      exact Wire.align4_mod _
    obtain rfl := addRaw_eq_ok ha happend
    rw [Wire.padded_of_mod hmod, hencode]
    exact ⟨rfl, hrecord⟩

/-- Several parts add their records one behind another. -/
theorem eq_of_writeAll {ps : List Part} {d d' : Draft} (ha : d.body.Aligned)
    (h : ps.foldlM (fun d p => p.write d) d = .ok d') :
    d' = d.extend (Attribute.encodeAll (ps.map written)) ∧ ∀ a ∈ ps.map written, a.Declarable := by
  induction ps generalizing d with
  | nil =>
    rw [← Except.ok.inj h]
    refine ⟨?_, List.forall_mem_nil _⟩
    simp [Attribute.encodeAll, extend, Buffer.extend]
  | cons p ps ih =>
    rw [List.foldlM_cons] at h
    obtain ⟨d₁, hfirst, hrest⟩ := bind_eq_ok.mp h
    obtain ⟨rfl, hdeclarable⟩ := eq_of_write ha hfirst
    obtain ⟨rfl, hall⟩ := ih (ha.extend_attribute p.written) hrest
    rw [List.map_cons, Attribute.encodeAll_cons, extend_extend]
    exact ⟨rfl, List.forall_mem_cons.mpr ⟨hdeclarable, hall⟩⟩

/-- Behind a fixed part on the grid, the parts of a message are the records of their attributes. -/
theorem body_of_built {ps : List Part} {fixed : Bytes} {d₀ d : Draft} (hfresh : Fresh d₀)
    (hgrid : fixed.length % 4 = 0) (h : d₀.build fixed ps = .ok d) :
    d.encode.drop headerSize = fixed ++ Attribute.encodeAll (ps.map written) ∧
      ∀ a ∈ ps.map written, a.Declarable := by
  obtain ⟨d₁, hraw, hrest⟩ := bind_eq_ok.mp h
  obtain rfl := addRaw_eq_ok hfresh.aligned hraw
  rw [Wire.padded_of_mod hgrid] at hrest
  obtain ⟨rfl, hall⟩ := eq_of_writeAll (hfresh.aligned.extend hgrid) hrest
  refine ⟨?_, hall⟩
  rw [encode, List.drop_left' (Header.length_encode _), extend_extend]
  simp [extend, Buffer.extend, hfresh.bytes]

end Part
end Draft
end Netlink
