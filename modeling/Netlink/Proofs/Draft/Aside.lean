import Netlink.Proofs.Draft.Room
import Netlink.Proofs.Draft.RoundTrip

/-! # Trees built aside

A tree that is built on its own and appended afterwards is the nest that could have been written in
its place. Both ways succeed for the same trees, those whose length can be declared, although one
refuses what outgrows the tree's capacity and the other what outgrows a length field. -/

namespace Netlink

namespace Forest

open Draft (eq_of_write)

variable {f children rest : Forest} {type : UInt16} {d d' d₁ d₂ : Draft} {mark : Draft.Mark}

/-- The record of a nest is its header and the records of its children. -/
theorem encode_record (type : UInt16) (children : Forest) :
    Attribute.encode ⟨type, children.encode⟩ =
      (AttributeHeader.ofSize type children.encode.length).encode ++ children.encode :=
  Attribute.encode_of_mod (a := ⟨type, children.encode⟩) children.length_encode_mod

/-- A nest whose children have been written is closed, if its length can be declared. -/
theorem write_nest (ha : d.body.Aligned) (hopen : d.addNest type = .ok (mark, d₁))
    (hchildren : children.write d₁ = .ok d₂) :
    (nest type children rest).write d =
      if Draft.maxRecord < Attribute.headerSize + children.encode.length then
        .error (.invalidAttribute (.nestTooLong (Attribute.headerSize + children.encode.length)))
      else rest.write (d.extend (Attribute.encode ⟨type, children.encode⟩)) := by
  obtain ⟨hmark, hopened⟩ := Draft.addNest_eq_ok ha hopen
  have ha₁ : d₁.body.Aligned := by
    rw [hopened]
    exact ha.extend_header _
  obtain ⟨hwritten, -⟩ := eq_of_write ha₁ hchildren
  rw [hopened, Draft.extend_extend] at hwritten
  have hclose := d.closeNest_extend (AttributeHeader.ofSize type 0) children.encode
  rw [← hwritten, ← hmark] at hclose
  rw [write, hopen]
  change (children.write d₁ >>= _) = _
  rw [hchildren]
  change ((d₂.closeNest mark).1 >>= fun _ => rest.write (d₂.closeNest mark).2) = _
  rw [hclose]
  split
  · rfl
  · rw [encode_record]
    rfl

/-- Where a draft keeps to its capacity, a forest is written just if all its lengths can be declared
and there is room for its records. -/
theorem write_eq_ok_iff (ha : d.body.Aligned) (hroom : d.size ≤ d.capacity) :
    f.write d = .ok d' ↔
      d' = d.extend f.encode ∧ f.Declarable ∧ d'.size ≤ d'.capacity := by
  induction f generalizing d d' with
  | nil =>
    have hnothing : d.extend (encode nil) = d := by
      simp [Draft.extend, Draft.Buffer.extend, encode]
    rw [write, Except.ok.injEq, hnothing]
    constructor
    · rintro rfl
      exact ⟨rfl, trivial, hroom⟩
    · rintro ⟨rfl, -⟩
      rfl
  | leaf type payload rest ih =>
    have ha₁ : (d.extend (Attribute.encode ⟨type, payload⟩)).body.Aligned :=
      ha.extend_attribute _
    rw [write, bind_eq_ok]
    constructor
    · rintro ⟨d₁, happend, hrest⟩
      have hsize := Draft.size_of_add ha happend
      obtain ⟨rfl, hleaf⟩ := Draft.add_eq_ok ha happend
      obtain ⟨rfl, hlater, hend⟩ := (ih ha₁ hsize).mp hrest
      exact ⟨Draft.extend_extend .., ⟨hleaf, hlater⟩, hend⟩
    · rintro ⟨rfl, ⟨hleaf, hlater⟩, hend⟩
      have hsize : (d.extend (Attribute.encode ⟨type, payload⟩)).size ≤ d.capacity := by
        rw [encode, ← Draft.extend_extend, Draft.size_extend] at hend
        exact Nat.le_of_add_right_le hend
      exact ⟨_, Draft.add_of_room ha hleaf hsize,
        (ih ha₁ hsize).mpr ⟨(Draft.extend_extend ..).symm, hlater, hend⟩⟩
  | nest type children rest ihc ihr =>
    have ha₁ := ha.extend_header (.ofSize type 0)
    have ha₂ := ha.extend_attribute ⟨type, children.encode⟩
    -- the header that is written first is as long as the one that stands there in the end
    have hlength : (d.extend (Attribute.encode ⟨type, children.encode⟩)).size =
        ((d.extend (AttributeHeader.ofSize type 0).encode).extend children.encode).size := by
      simp only [encode_record, Draft.size_extend, List.length_append,
        AttributeHeader.length_encode, Nat.add_assoc]
    constructor
    · intro h
      obtain ⟨⟨mark, d₁⟩, hopen, h₁⟩ := bind_eq_ok.mp h
      obtain ⟨d₂, hchildren, -⟩ := bind_eq_ok.mp h₁
      rw [write_nest ha hopen hchildren] at h
      have hopened := Draft.size_of_addNest ha hopen
      obtain ⟨-, rfl⟩ := Draft.addNest_eq_ok ha hopen
      obtain ⟨rfl, hc, hfilled⟩ := (ihc ha₁ hopened).mp hchildren
      split at h
      · cases h
      · rename_i hfits
        have hclosed : (d.extend (Attribute.encode ⟨type, children.encode⟩)).size ≤ d.capacity := by
          rw [hlength]
          exact hfilled
        obtain ⟨rfl, hr, hend⟩ := (ihr ha₂ hclosed).mp h
        refine ⟨Draft.extend_extend .., ⟨?_, hc, hr⟩, hend⟩
        simp only [Attribute.Declarable, Attribute.recordSize, UInt16.size, Draft.maxRecord] at hfits ⊢
        omega
    · rintro ⟨rfl, ⟨hnest, hc, hr⟩, hend⟩
      have hclosed : (d.extend (Attribute.encode ⟨type, children.encode⟩)).size ≤ d.capacity := by
        rw [encode, ← Draft.extend_extend, Draft.size_extend] at hend
        exact Nat.le_of_add_right_le hend
      have hfilled := hclosed
      rw [hlength] at hfilled
      have hopened : (d.extend (AttributeHeader.ofSize type 0).encode).size ≤ d.capacity := by
        rw [Draft.size_extend] at hfilled
        exact Nat.le_of_add_right_le hfilled
      have hopen := Draft.addNest_of_room ha hopened
      have hfits : ¬ Draft.maxRecord < Attribute.headerSize + children.encode.length := by
        simp only [Attribute.Declarable, Attribute.recordSize, UInt16.size, Draft.maxRecord] at hnest ⊢
        omega
      rw [write_nest ha hopen ((ihc ha₁ hopened).mpr ⟨rfl, hc, hfilled⟩), if_neg hfits]
      exact (ihr ha₂ hclosed).mpr ⟨(Draft.extend_extend ..).symm, hr, hend⟩

/-- A forest whose records are short enough together has no record that is too long. -/
theorem declarable_of_length (h : f.encode.length < UInt16.size) : f.Declarable := by
  have hpad (a : Attribute) : a.recordSize ≤ a.encode.length := by
    rw [Attribute.length_encode]
    exact Wire.le_align4 _
  induction f with
  | nil => trivial
  | leaf type payload rest ih =>
    have hleaf := hpad ⟨type, payload⟩
    rw [encode, List.length_append] at h
    exact ⟨by unfold Attribute.Declarable; omega, ih (by omega)⟩
  | nest type children rest ihc ihr =>
    have hnest := hpad ⟨type, children.encode⟩
    rw [encode, List.length_append] at h
    have hchildren : children.encode.length ≤ Attribute.recordSize ⟨type, children.encode⟩ :=
      Nat.le_add_left ..
    exact ⟨by unfold Attribute.Declarable; omega, ihc (by omega), ihr (by omega)⟩

/-! ## The two ways to build a nest -/

/-- The forest with every nest in it marked as one. -/
def marked : Forest → Forest
  | nil => nil
  | leaf type payload rest => leaf type payload rest.marked
  | nest type children rest => nest (type ||| Attribute.nestedFlag) children.marked rest.marked

/-- Adds a forest to a tree that is built aside. -/
def grow : Forest → Draft.Tree → Except Error Draft.Tree
  | nil, t => .ok t
  | leaf type payload rest, t => do
    let t ← t.append ⟨type, payload⟩
    rest.grow t
  | nest type children rest, t => do
    let (mark, t) ← t.openNest type
    let t ← children.grow t
    let (_, t) ← t.closeNest mark
    rest.grow t

theorem length_encode_marked (f : Forest) : f.marked.encode.length = f.encode.length := by
  induction f with
  | nil => rfl
  | leaf type payload rest ih => simp only [marked, encode, List.length_append, ih]
  | nest type children rest ihc ihr =>
    simp only [marked, encode, List.length_append, Attribute.length_encode, Attribute.recordSize,
      ihc, ihr]

/-- To grow a tree is to write the marked forest into a draft with the same body. -/
theorem grow_eq (f : Forest) {t : Draft.Tree} {d : Draft} (hbody : d.body = t.children) :
    f.grow t = (f.marked.write d).map fun d => { t with children := d.body } := by
  induction f generalizing t d with
  | nil =>
    simp only [grow, marked, write, Except.map, hbody]
  | leaf type payload rest ih =>
    rw [grow, marked, write, Draft.Tree.append, Draft.add_eq, hbody]
    cases t.children.addAttribute ⟨type, payload⟩ with
    | error e => rfl
    | ok b => exact ih rfl
  | nest type children rest ihc ihr =>
    rw [grow, marked, write, Draft.Tree.openNest, Draft.Tree.append, Draft.addNest_eq, Draft.add_eq,
      hbody]
    change ((((t.children.addAttribute ⟨type ||| Attribute.nestedFlag, []⟩) >>= _) >>= _) >>= _) =
      Except.map _ ((((t.children.addAttribute ⟨type ||| Attribute.nestedFlag, []⟩).map _).map _)
        >>= _)
    cases t.children.addAttribute ⟨type ||| Attribute.nestedFlag, []⟩ with
    | error e => rfl
    | ok b =>
      have hopened := ihc (t := { t with children := b }) (d := { d with body := b }) rfl
      change (children.grow { t with children := b } >>= _) =
        Except.map _ (children.marked.write { d with body := b } >>= _)
      rw [hopened]
      cases children.marked.write { d with body := b } with
      | error e => rfl
      | ok d₂ =>
        simp only [Except.map, bind, Except.bind, Draft.Tree.closeNest, Draft.closeNest]
        cases d₂.body.setLength t.children.front (d₂.body.sizeFrom t.children.front) with
        | error e => rfl
        | ok b₂ => exact ihr rfl

/-- A tree that is grown from nothing holds the marked forest, if its length can be declared. -/
theorem grow_new_eq_ok_iff {capacity : Nat} (hcapacity : Draft.maxRecord ≤ capacity)
    {t : Draft.Tree} :
    f.grow (.new type capacity) = .ok t ↔
      t = ⟨type, (Draft.Tree.new type capacity).children.extend f.marked.encode⟩ ∧
        Attribute.headerSize + f.encode.length ≤ Draft.maxRecord := by
  let d : Draft := ⟨0, 0, 0, 0, (Draft.Tree.new type capacity).children⟩
  have hroom : d.capacity = Draft.maxRecord := by
    change max Attribute.headerSize (min capacity Draft.maxRecord) = Draft.maxRecord
    rw [Nat.min_eq_right hcapacity]
    rfl
  have hbare : d.size = Attribute.headerSize := rfl
  have hwrite {d' : Draft} : f.marked.write d = .ok d' ↔ d' = d.extend f.marked.encode ∧
      f.marked.Declarable ∧ Attribute.headerSize + f.encode.length ≤ Draft.maxRecord := by
    have ha : d.body.Aligned := rfl
    have hfront : d.size ≤ d.capacity := by
      rw [hbare, hroom]
      decide
    rw [write_eq_ok_iff ha hfront]
    refine and_congr_right fun hd' => and_congr_right fun _ => ?_
    have hsame : d'.capacity = d.capacity := by rw [hd']; rfl
    rw [hsame, hroom, hd', Draft.size_extend, hbare, length_encode_marked]
  rw [grow_eq f (d := d) rfl]
  constructor
  · intro h
    cases hresult : f.marked.write d with
    | error e =>
      rw [hresult] at h
      cases h
    | ok d' =>
      rw [hresult] at h
      cases h
      obtain ⟨rfl, -, hfits⟩ := hwrite.mp hresult
      exact ⟨rfl, hfits⟩
  · rintro ⟨rfl, hfits⟩
    have hshort : f.marked.encode.length < UInt16.size := by
      simp only [length_encode_marked, Draft.maxRecord, UInt16.size] at hfits ⊢
      omega
    rw [hwrite.mpr ⟨rfl, declarable_of_length hshort, hfits⟩]
    rfl

end Forest

namespace Draft

variable {d d' : Draft} {type : UInt16} {forest : Forest} {capacity : Nat}

/-- The nest takes as much room as the tree. -/
theorem size_extend_nest (d : Draft) (type : UInt16) (forest : Forest) :
    (d.extend (Attribute.encode ⟨type, forest.marked.encode⟩)).size =
      d.size + (Attribute.headerSize + forest.encode.length) := by
  rw [size_extend, Forest.encode_record, List.length_append, AttributeHeader.length_encode,
    Forest.length_encode_marked]

/-- A tree that was grown aside is appended as a nest of the marked forest. -/
theorem grow_addTree_eq_ok_iff (ha : d.body.Aligned) (hcapacity : maxRecord ≤ capacity)
    (hroom : d.size + (Attribute.headerSize + forest.encode.length) ≤ d.capacity) :
    (forest.grow (.new type capacity) >>= d.addTree) = .ok d' ↔
      d' = d.extend (Attribute.encode ⟨type, forest.marked.encode⟩) ∧
        Attribute.headerSize + forest.encode.length ≤ maxRecord := by
  have happend : d.addTree ⟨type, (Tree.new type capacity).children.extend forest.marked.encode⟩ =
      .ok (d.extend (Attribute.encode ⟨type, forest.marked.encode⟩)) := by
    rw [← d.size_extend_nest type forest] at hroom
    exact addRaw_eq_ok_iff.mpr ⟨_, Buffer.add_of_room ha hroom, rfl⟩
  rw [bind_eq_ok]
  constructor
  · rintro ⟨t, hgrow, hd'⟩
    obtain ⟨rfl, hfits⟩ := (Forest.grow_new_eq_ok_iff hcapacity).mp hgrow
    rw [happend] at hd'
    exact ⟨(Except.ok.inj hd').symm, hfits⟩
  · rintro ⟨rfl, hfits⟩
    exact ⟨_, (Forest.grow_new_eq_ok_iff hcapacity).mpr ⟨rfl, hfits⟩, happend⟩

theorem write_marked_eq_ok_iff (ha : d.body.Aligned)
    (hroom : d.size + (Attribute.headerSize + forest.encode.length) ≤ d.capacity) :
    (Forest.nest type forest.marked .nil).write d = .ok d' ↔
      d' = d.extend (Attribute.encode ⟨type, forest.marked.encode⟩) ∧
        Attribute.headerSize + forest.encode.length ≤ maxRecord := by
  have hencode : (Forest.nest type forest.marked .nil).encode =
      Attribute.encode ⟨type, forest.marked.encode⟩ := List.append_nil _
  have hdeclarable : Attribute.Declarable ⟨type, forest.marked.encode⟩ ↔
      Attribute.headerSize + forest.encode.length ≤ maxRecord := by
    rw [Attribute.Declarable, Attribute.recordSize, Forest.length_encode_marked]
    exact Nat.lt_succ_iff
  rw [Forest.write_eq_ok_iff ha (Nat.le_of_add_right_le hroom), hencode]
  refine and_congr_right fun hd' => ?_
  have hend : d'.size ≤ d'.capacity := by
    rw [hd', size_extend_nest]
    exact hroom
  constructor
  · rintro ⟨⟨hnest, -⟩, -⟩
    exact hdeclarable.mp hnest
  · intro hfits
    have hnest := hdeclarable.mpr hfits
    refine ⟨⟨hnest, Forest.declarable_of_length (Nat.lt_of_le_of_lt ?_ hnest), trivial⟩, hend⟩
    exact Nat.le_add_left ..

/-- **A tree that is built aside is a nest that is written in place.** Where there is room for the
whole tree, to grow it on its own and append it succeeds just if writing it as a nest does, with
every nest inside it marked as one; and then the message is the same. Both succeed just if a length
field can declare the length of the tree. -/
theorem grow_appendTree_iff_write (d : Draft) (type : UInt16) (forest : Forest)
    (hcapacity : maxRecord ≤ capacity)
    (hroom : d.body.base + d.body.front + (Attribute.headerSize + forest.encode.length) ≤
      d.capacity) :
    let aside := forest.grow (.new type capacity) >>= d.addTree
    let inPlace := (Forest.nest type forest.marked .nil).write d
    ((∃ d', aside = .ok d') ↔ ∃ d', inPlace = .ok d') ∧
      (∀ d₁ d₂, aside = .ok d₁ → inPlace = .ok d₂ → d₁.encode = d₂.encode) ∧
      ((∃ d', aside = .ok d') ↔ Attribute.headerSize + forest.encode.length ≤ maxRecord) := by
  intro aside inPlace
  have hsize : d.pad.size + (Attribute.headerSize + forest.encode.length) ≤ d.pad.capacity := by
    have hlength : d.pad.size = d.body.base + d.body.front :=
      congrArg (d.body.base + ·) (Wire.length_padded d.body.bytes)
    rw [hlength]
    exact hroom
  have haside : aside = (forest.grow (.new type capacity) >>= d.pad.addTree) :=
    congrArg _ (funext fun t => (d.addRaw_pad t.encode).symm)
  have hinPlace : inPlace = (Forest.nest type forest.marked .nil).write d.pad := by
    simp only [inPlace, Forest.write, addNest_pad]
  have haside_iff (d' : Draft) : aside = .ok d' ↔
      d' = d.pad.extend (Attribute.encode ⟨type, forest.marked.encode⟩) ∧
        Attribute.headerSize + forest.encode.length ≤ maxRecord := by
    rw [haside]
    exact grow_addTree_eq_ok_iff d.aligned_pad hcapacity hsize
  have hinPlace_iff (d' : Draft) : inPlace = .ok d' ↔
      d' = d.pad.extend (Attribute.encode ⟨type, forest.marked.encode⟩) ∧
        Attribute.headerSize + forest.encode.length ≤ maxRecord := by
    rw [hinPlace]
    exact write_marked_eq_ok_iff d.aligned_pad hsize
  refine ⟨?_, fun d₁ d₂ h₁ h₂ => ?_, ?_⟩
  · simp only [haside_iff, hinPlace_iff]
  · rw [((haside_iff d₁).mp h₁).1, ((hinPlace_iff d₂).mp h₂).1]
  · simp only [haside_iff, exists_eq_left]

/-- A tree with a leaf and an empty nest, for a route request. -/
theorem grow_appendTree_iff_write_sample :
    let forest : Forest := .leaf 2 [31, 32] (.nest 5 .nil .nil)
    let d := new 24 1
    maxRecord ≤ defaultCapacity * 2 ∧
      d.body.base + d.body.front + (Attribute.headerSize + forest.encode.length) ≤ d.capacity ∧
      ∃ d₁ d₂, (forest.grow (.new 18 (defaultCapacity * 2)) >>= d.addTree) = .ok d₁ ∧
        (Forest.nest 18 forest.marked .nil).write d = .ok d₂ ∧ d₁.encode = d₂.encode := by
  intro forest d
  have hcapacity : maxRecord ≤ defaultCapacity * 2 := by decide
  have hroom : d.body.base + d.body.front + (Attribute.headerSize + forest.encode.length) ≤
      d.capacity := by decide
  obtain ⟨hboth, hsame, hfits⟩ := grow_appendTree_iff_write d 18 forest hcapacity hroom
  obtain ⟨d₁, h₁⟩ := hfits.mpr (by decide)
  obtain ⟨d₂, h₂⟩ := hboth.mp ⟨d₁, h₁⟩
  exact ⟨hcapacity, hroom, d₁, d₂, h₁, h₂, hsame d₁ d₂ h₁ h₂⟩

end Draft
end Netlink
