import Netlink.Proofs.Attribute.Division
import Netlink.Proofs.Draft.Room

/-! # Appending what was walked

To append attributes one behind another is the inverse of walking them: what was appended is walked
to its end, and what was walked to its end, with zeros for padding, is appended as it was. -/

namespace Netlink

namespace Draft

variable {d d' : Draft} {as : List Attribute}

/-- What attributes add to a draft is their records, all of which can be declared. -/
theorem eq_of_appended (ha : d.body.Aligned) (h : as.foldlM add d = .ok d') :
    d' = d.extend (Attribute.encodeAll as) ∧ ∀ a ∈ as, a.Declarable := by
  induction as generalizing d with
  | nil =>
    rw [← Except.ok.inj h]
    exact ⟨by simp [extend, Buffer.extend, Attribute.encodeAll], List.forall_mem_nil _⟩
  | cons a as ih =>
    rw [List.foldlM_cons] at h
    obtain ⟨d₁, happend, hrest⟩ := bind_eq_ok.mp h
    obtain ⟨rfl, hfirst⟩ := add_eq_ok ha happend
    obtain ⟨rfl, hlater⟩ := ih (ha.extend_attribute a) hrest
    rw [extend_extend, ← Attribute.encodeAll_cons]
    exact ⟨rfl, List.forall_mem_cons.mpr ⟨hfirst, hlater⟩⟩

/-- Attributes are appended where they can be declared and there is room for all of them. -/
theorem appended_of_room (ha : d.body.Aligned) (hdeclarable : ∀ a ∈ as, a.Declarable)
    (hroom : (d.extend (Attribute.encodeAll as)).size ≤ d.capacity) :
    as.foldlM add d = .ok (d.extend (Attribute.encodeAll as)) := by
  induction as generalizing d with
  | nil => exact congrArg Except.ok (by simp [extend, Buffer.extend, Attribute.encodeAll])
  | cons a as ih =>
    rw [Attribute.encodeAll_cons, ← extend_extend] at hroom ⊢
    obtain ⟨hfirst, hlater⟩ := List.forall_mem_cons.mp hdeclarable
    have hroom₁ : (d.extend a.encode).size ≤ d.capacity := by
      rw [size_extend] at hroom
      exact Nat.le_of_add_right_le hroom
    rw [List.foldlM_cons, add_of_room ha hfirst hroom₁]
    exact ih (ha.extend_attribute a) hlater hroom

/-- A new draft with room for the attributes takes them, and behind its header there is nothing but
their records. -/
theorem Fresh.appended (h : Fresh d) (hdeclarable : ∀ a ∈ as, a.Declarable)
    (hroom : headerSize + (Attribute.encodeAll as).length ≤ d.capacity) :
    ∃ d', as.foldlM add d = .ok d' ∧ d'.encode.drop headerSize = Attribute.encodeAll as := by
  have hsize : (d.extend (Attribute.encodeAll as)).size =
      headerSize + (Attribute.encodeAll as).length := by
    rw [size_extend, size, Buffer.size, h.base, h.bytes]
    rfl
  refine ⟨_, appended_of_room h.aligned hdeclarable (hsize ▸ hroom), ?_⟩
  rw [encode, List.drop_left' (Header.length_encode _), extend, Buffer.extend, h.bytes]
  rfl

end Draft

/-- **Walking and appending are inverse.** The walk of any bytes takes the records that stand in them
one behind another, each as long as it declares, and stops at bytes that begin with none. If it leaves
nothing, and if all padding is there and zero, then a new draft with room for as many bytes takes the
attributes of the walk, and has the same bytes behind its header. And a new draft with room for any
attributes of which none is too long takes them, and their walk finds them again and leaves nothing. -/
theorem Draft.appending_inverts_walking :
    (∀ bs w, Attribute.walk bs = w ↔
      ∃ stop, Attribute.Path bs 0 w.attributes stop ∧ w.rest = bs.drop stop ∧
        Attribute.Stuck w.rest) ∧
      (∀ bs, (Attribute.walk bs).deficit = 0 → bs.length % 4 = 0 →
        Attribute.ZeroPadded bs 0 (Attribute.walk bs).attributes →
        ∀ d, Fresh d → headerSize + bs.length ≤ d.capacity →
          ∃ d', (Attribute.walk bs).attributes.foldlM add d = .ok d' ∧
            d'.encode.drop headerSize = bs) ∧
      ∀ as : List Attribute, (∀ a ∈ as, a.payload.length ≤ 65531) →
        ∀ d, Fresh d → headerSize + (Attribute.encodeAll as).length ≤ d.capacity →
          ∃ d', as.foldlM add d = .ok d' ∧
            Attribute.walk (d'.encode.drop headerSize) = ⟨as, []⟩ := by
  refine ⟨fun bs w => Attribute.walk_eq_iff, ?_, ?_⟩
  · intro bs hend hgrid hzero d hfresh hroom
    have hbytes := Attribute.encodeAll_walk hend hgrid hzero
    have hdeclarable : ∀ a ∈ (Attribute.walk bs).attributes, a.Declarable := fun a ha =>
      Attribute.declarable_of_mem_walk ha
    have happended := hfresh.appended hdeclarable (hbytes.symm ▸ hroom)
    rwa [hbytes] at happended
  · intro as hshort d hfresh hroom
    have hdeclarable : ∀ a ∈ as, a.Declarable := fun a ha =>
      Attribute.declarable_of_length (hshort a ha)
    obtain ⟨d', happended, hbytes⟩ := hfresh.appended hdeclarable hroom
    exact ⟨d', happended, hbytes ▸ Attribute.walk_encodeAll hdeclarable⟩

/-- Two records, the first with three bytes of padding. -/
theorem Draft.appending_inverts_walking_sample :
    let bs : Bytes := [5, 0, 1, 0, 9, 0, 0, 0, 4, 0, 2, 128]
    Attribute.walk bs = ⟨[⟨1, [9]⟩, ⟨0x8002, []⟩], []⟩ ∧ bs.length % 4 = 0 ∧
      Attribute.ZeroPadded bs 0 (Attribute.walk bs).attributes ∧
      Fresh (new 16 1) ∧ headerSize + bs.length ≤ (new 16 1).capacity ∧
      ∃ d', (Attribute.walk bs).attributes.foldlM add (new 16 1) = .ok d' ∧
        d'.encode.drop headerSize = bs := by
  intro bs
  have hdeclarable : ∀ a ∈ ([⟨1, [9]⟩, ⟨0x8002, []⟩] : List Attribute), a.Declarable := by
    unfold Attribute.Declarable
    decide
  have hwalk : Attribute.walk bs = ⟨[⟨1, [9]⟩, ⟨0x8002, []⟩], []⟩ :=
    Attribute.walk_encodeAll hdeclarable
  have hgrid : bs.length % 4 = 0 := by decide
  have hzero : Attribute.ZeroPadded bs 0 (Attribute.walk bs).attributes := by
    rw [hwalk]
    simp [Attribute.ZeroPadded, bs, Attribute.recordSize, Attribute.headerSize, Wire.align4]
  have hfresh : Fresh (new 16 1) := .new 16 1
  have hroom : headerSize + bs.length ≤ (new 16 1).capacity := by decide
  have hend : (Attribute.walk bs).deficit = 0 := by
    rw [hwalk]
    rfl
  exact ⟨hwalk, hgrid, hzero, hfresh, hroom,
    appending_inverts_walking.2.1 bs hend hgrid hzero (new 16 1) hfresh hroom⟩

end Netlink
