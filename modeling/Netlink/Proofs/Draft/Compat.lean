import Netlink.Proofs.Attribute.Index
import Netlink.Proofs.Draft.Appending

/-! # Nests behind a struct

A nest behind a struct is written as one attribute: the struct with its padding and, if there are any
children, an attribute of the same type with their records. It is read back as the struct and a table
of the children, wherever in a message it stands. -/

namespace Netlink

theorem Wire.padded_append_of_mod {front : Bytes} (h : front.length % 4 = 0) (rest : Bytes) :
    padded (front ++ rest) = front ++ padded rest := by
  have hgap : align4 (front ++ rest).length - (front ++ rest).length =
      align4 rest.length - rest.length := by
    rw [List.length_append]
    unfold align4
    omega
  rw [padded, hgap, List.append_assoc, padded]

namespace Attribute

theorem encode_eq (a : Attribute) :
    a.encode = (AttributeHeader.ofSize a.type a.payload.length).encode ++ Wire.padded a.payload :=
  Wire.padded_append_of_mod (by rw [AttributeHeader.length_encode]; rfl) _

/-- A nest of children behind a struct. Without children there is no nest. -/
def behindStruct (type : UInt16) (data : Bytes) (children : List Attribute) : Attribute :=
  ⟨type, Wire.padded data ++ encodeAll
    (if children = [] then [] else [⟨type, encodeAll children⟩])⟩

theorem length_behindStruct_mod (type : UInt16) (data : Bytes) (children : List Attribute) :
    (behindStruct type data children).payload.length % 4 = 0 := by
  have hdata := Wire.length_padded_mod data
  have hnest := length_encodeAll_mod
    (if children = [] then [] else [(⟨type, encodeAll children⟩ : Attribute)])
  rw [behindStruct, List.length_append]
  omega

theorem encodeAll_eq_nil_iff {as : List Attribute} : encodeAll as = [] ↔ as = [] := by
  cases as with
  | nil => simp [encodeAll]
  | cons a as =>
    have hlength : 0 < a.encode.length := by
      rw [encode_eq, List.length_append, AttributeHeader.length_encode]
      exact Nat.lt_of_lt_of_le (by decide) (Nat.le_add_right ..)
    simp [encodeAll_cons, List.ne_nil_of_length_pos hlength]

end Attribute

namespace Draft

variable {d d' d₁ d₂ : Draft} {type : UInt16} {data : Bytes} {children : List Attribute}
  {mark : CompatMark}

/-! ## What is written -/

/-- A nest behind a struct is opened by the record of the struct and an empty attribute. -/
theorem openCompat_eq_ok (ha : d.body.Aligned) (h : d.openCompat type data = (.ok mark, d')) :
    let struct := (AttributeHeader.ofSize type data.length).encode ++ Wire.padded data
    mark = ⟨d.body.bytes.length, ⟨(d.extend struct).body.bytes.length⟩⟩ ∧
      d' = (d.extend struct).extend (AttributeHeader.ofSize type 0).encode := by
  intro struct
  obtain ⟨outer, houter, hinner, hmark⟩ := openCompat_eq_ok_iff.mp h
  obtain ⟨rfl, -⟩ := add_eq_ok ha houter
  obtain ⟨hmark', rfl⟩ := addNest_eq_ok (ha.extend_attribute _) hinner
  have hstruct : Attribute.encode ⟨type, data⟩ = struct := Attribute.encode_eq ⟨type, data⟩
  rw [hstruct] at hmark' ⊢
  obtain ⟨start, inner⟩ := mark
  obtain rfl : start = d.body.bytes.length := hmark.trans ha.front
  obtain rfl : inner = ⟨(d.extend struct).body.bytes.length⟩ := hmark'
  exact ⟨rfl, rfl⟩

/-- Without children a nest behind a struct is closed as if there were only the struct. -/
theorem closeCompat_extend_nil (d : Draft) (outer inner : AttributeHeader) (head : Bytes) :
    let front := d.extend (outer.encode ++ head)
    (front.extend inner.encode).closeCompat ⟨d.body.bytes.length, ⟨front.body.bytes.length⟩⟩ =
      if maxRecord < Attribute.headerSize + head.length then
        (.error (.invalidAttribute (.nestTooLong (Attribute.headerSize + head.length))), d)
      else
        (.ok (), d.extend ((AttributeHeader.ofSize outer.type head.length).encode ++ head)) := by
  intro front
  have hempty : (front.extend inner.encode).body.sizeFrom front.body.bytes.length =
      Attribute.headerSize := by
    rw [extend, Buffer.sizeFrom_extend, AttributeHeader.length_encode]
  have hcut : (front.extend inner.encode).body.cut front.body.bytes.length = front.body :=
    Buffer.cut_extend ..
  have hclose : (front.extend inner.encode).closeCompat
        ⟨d.body.bytes.length, ⟨front.body.bytes.length⟩⟩ =
      ((front.closeNest ⟨d.body.bytes.length⟩).1.map fun _ => (),
        (front.closeNest ⟨d.body.bytes.length⟩).2) := by
    simp only [closeCompat, closeNest, hempty, if_true, bind_pure, hcut]
    cases front.body.setLength d.body.bytes.length (front.body.sizeFrom d.body.bytes.length) <;> rfl
  rw [hclose, closeNest_extend]
  split <;> rfl

/-- With children a nest behind a struct is closed by two lengths, of which the outer one is greater. -/
theorem closeCompat_extend {nested : Bytes} (hnested : nested ≠ []) (d : Draft)
    (outer inner : AttributeHeader) (head : Bytes) :
    let front := d.extend (outer.encode ++ head)
    let payload := head ++ ((AttributeHeader.ofSize inner.type nested.length).encode ++ nested)
    (front.extend (inner.encode ++ nested)).closeCompat
        ⟨d.body.bytes.length, ⟨front.body.bytes.length⟩⟩ =
      if maxRecord < Attribute.headerSize + payload.length then
        (.error (.invalidAttribute (.nestTooLong (Attribute.headerSize + payload.length))), d)
      else
        (.ok (), d.extend ((AttributeHeader.ofSize outer.type payload.length).encode ++ payload)) := by
  intro front payload
  have hbody : (front.extend (inner.encode ++ nested)).body =
      d.body.extend (outer.encode ++ (head ++ (inner.encode ++ nested))) := by
    simp only [front, extend, Buffer.extend_extend, List.append_assoc]
  have hinner : (front.extend (inner.encode ++ nested)).body.sizeFrom front.body.bytes.length =
      Attribute.headerSize + nested.length := by
    rw [extend, Buffer.sizeFrom_extend, List.length_append, AttributeHeader.length_encode]
  have houter : (front.extend (inner.encode ++ nested)).body.sizeFrom d.body.bytes.length =
      Attribute.headerSize + payload.length := by
    rw [hbody, Buffer.sizeFrom_extend]
    simp only [payload, List.length_append, AttributeHeader.length_encode]
  have hkept : ¬ Attribute.headerSize + nested.length = Attribute.headerSize := by
    have hpositive := List.length_pos_iff.mpr hnested
    omega
  simp only [closeCompat, hinner, hkept, if_false, houter]
  by_cases hlong : maxRecord < Attribute.headerSize + payload.length
  · rw [if_pos hlong, Buffer.setLength_of_gt hlong, hbody]
    change (Except.error _, { d with body := (d.body.extend _).cut d.body.bytes.length }) = _
    rw [Buffer.cut_extend]
  · -- once the outer length is written, the inner one stands behind as much as before
    have hfits : Attribute.headerSize + nested.length ≤ maxRecord := by
      simp only [payload, List.length_append] at hlong
      omega
    let closed := d.body.extend ((AttributeHeader.ofSize outer.type payload.length).encode ++ head)
    have hfirst : (front.extend (inner.encode ++ nested)).body.setLength d.body.bytes.length
        (Attribute.headerSize + payload.length) = .ok (closed.extend (inner.encode ++ nested)) := by
      rw [hbody, Buffer.setLength_extend _ _ _ (Nat.le_of_not_lt hlong)]
      simp only [closed, Buffer.extend_extend, List.append_assoc]
      rfl
    have hstart : front.body.bytes.length = closed.bytes.length := by
      simp [front, closed, extend, Buffer.extend]
    have hsecond : (closed.extend (inner.encode ++ nested)).setLength front.body.bytes.length
        (Attribute.headerSize + nested.length) =
        .ok (d.body.extend
          ((AttributeHeader.ofSize outer.type payload.length).encode ++ payload)) := by
      rw [hstart, Buffer.setLength_extend _ _ _ hfits, Buffer.extend_extend, List.append_assoc]
      rfl
    rw [if_neg hlong, bind_eq_ok.mpr ⟨_, hfirst, hsecond⟩]
    rfl

/-- Closing a nest behind a struct either makes one record of it or takes it out. -/
theorem closeCompat_filled (d : Draft) (type : UInt16) (data : Bytes) (children : List Attribute) :
    let struct := (AttributeHeader.ofSize type data.length).encode ++ Wire.padded data
    let whole := Attribute.behindStruct type data children
    (((d.extend struct).extend (AttributeHeader.ofSize type 0).encode).extend
        (Attribute.encodeAll children)).closeCompat
        ⟨d.body.bytes.length, ⟨(d.extend struct).body.bytes.length⟩⟩ =
      if maxRecord < whole.recordSize then
        (.error (.invalidAttribute (.nestTooLong whole.recordSize)), d)
      else (.ok (), d.extend whole.encode) := by
  intro struct whole
  have hrecord := Attribute.encode_of_mod (Attribute.length_behindStruct_mod type data children)
  rw [extend_extend, hrecord]
  by_cases hnone : children = []
  · have hpayload : whole.payload = Wire.padded data := by
      simp only [whole, Attribute.behindStruct, if_pos hnone]
      exact List.append_nil _
    rw [Attribute.encodeAll_eq_nil_iff.mpr hnone, List.append_nil, closeCompat_extend_nil, ← hpayload]
    rfl
  · have hpayload : whole.payload = Wire.padded data ++
        ((AttributeHeader.ofSize type (Attribute.encodeAll children).length).encode ++
          Attribute.encodeAll children) := by
      rw [← Attribute.encode_of_mod (a := ⟨type, Attribute.encodeAll children⟩)
        (Attribute.length_encodeAll_mod children)]
      simp only [whole, Attribute.behindStruct, if_neg hnone, Attribute.encodeAll_cons]
      exact congrArg _ (List.append_nil _)
    have hsome : Attribute.encodeAll children ≠ [] := mt Attribute.encodeAll_eq_nil_iff.mp hnone
    have htype : (AttributeHeader.ofSize type 0).type = type := rfl
    rw [closeCompat_extend hsome, htype, ← hpayload]
    rfl

/-- What a nest behind a struct adds to a draft is one record. -/
theorem eq_of_compat (ha : d.body.Aligned) (hopen : d.openCompat type data = (.ok mark, d₁))
    (hchildren : children.foldlM add d₁ = .ok d₂) (hclose : d₂.closeCompat mark = (.ok (), d')) :
    d' = d.extend (Attribute.behindStruct type data children).encode ∧
      (Attribute.behindStruct type data children).Declarable ∧ ∀ a ∈ children, a.Declarable := by
  obtain ⟨rfl, rfl⟩ := openCompat_eq_ok ha hopen
  have hstruct : ((AttributeHeader.ofSize type data.length).encode ++ Wire.padded data).length % 4 =
      0 := by
    rw [← Attribute.encode_eq ⟨type, data⟩, Attribute.length_encode]
    exact Wire.align4_mod _
  obtain ⟨rfl, hdeclarable⟩ := eq_of_appended ((ha.extend hstruct).extend_header _) hchildren
  rw [closeCompat_filled] at hclose
  split at hclose
  · cases hclose
  · rename_i hfits
    cases hclose
    exact ⟨rfl, Nat.lt_succ_of_le (Nat.le_of_not_lt hfits), hdeclarable⟩

end Draft

/-! ## What is read -/

namespace Attribute

open Table

/-- The struct is read back, and a table of the children. -/
theorem readCompat_behindStruct {type : UInt16} {data : Bytes} {children : List Attribute}
    (hwhole : (behindStruct type data children).Declarable) (hchildren : ∀ a ∈ children, a.Declarable)
    (max : UInt16) :
    (readCompat max (behindStruct type data children) data.length).run =
      ⟨.ok (data, (empty max).fileAll 0 children), []⟩ := by
  let nested := encodeAll (if children = [] then [] else [(⟨type, encodeAll children⟩ : Attribute)])
  let gap := Wire.zeros (Wire.align4 data.length - data.length)
  have hpayload : (behindStruct type data children).payload = data ++ (gap ++ nested) := by
    simp only [behindStruct, Wire.padded, List.append_assoc, gap, nested]
  have hbehind : (behindStruct type data children).payload.drop (Wire.align4 data.length) = nested :=
    List.drop_left' (Wire.length_padded data)
  rw [readCompat, hbehind, hpayload, Wire.split?_append rfl]
  dsimp only
  by_cases hnone : children = []
  · have hnested : next? nested = none := by
      simp only [nested, if_pos hnone]
      rfl
    rw [hnested, hnone]
    rfl
  · have hnest : Declarable ⟨type, encodeAll children⟩ := by
      have hlength : nested.length = Wire.align4 (recordSize ⟨type, encodeAll children⟩) := by
        simp only [nested, if_neg hnone, encodeAll_cons, List.length_append, length_encode]
        rfl
      have hle := Wire.le_align4 (recordSize ⟨type, encodeAll children⟩)
      have hpart : nested.length ≤ (behindStruct type data children).recordSize := by
        rw [recordSize, hpayload]
        simp only [List.length_append]
        omega
      exact Nat.lt_of_le_of_lt (Nat.le_trans hle (hlength ▸ hpart)) hwhole
    have hnested : next? nested = some (⟨type, encodeAll children⟩, []) := by
      simp only [nested, if_neg hnone]
      exact next?_encode_append hnest []
    have hread : readNested max ⟨type, encodeAll children⟩ =
        ⟨(empty max).fileAll 0 children, []⟩ := by
      rw [readNested, Table.read, readClearing, walk_encodeAll hchildren]
      rfl
    rw [hnested]
    dsimp only
    rw [hread]
    rfl

end Attribute

/-- **A nest behind a struct is read back.** If a nest behind a struct is opened, filled with children
and closed, and none of this fails, then one attribute of its type has been appended. It is read, with
nothing to report, as the struct and a table in which each type has the first child of that type, and
which is empty if there were no children. -/
theorem Draft.readCompat_of_written {d d₁ d₂ d' : Draft} {type : UInt16} {data : Bytes}
    {children : List Attribute} {mark : CompatMark}
    (hopen : d.openCompat type data = (.ok mark, d₁))
    (hchildren : children.foldlM add d₁ = .ok d₂)
    (hclose : d₂.closeCompat mark = (.ok (), d')) :
    ∃ a : Attribute, a.type = type ∧ d'.body.bytes.take d.body.front = Wire.padded d.body.bytes ∧
      Attribute.walk (d'.body.bytes.drop d.body.front) = ⟨[a], []⟩ ∧
      ∀ max, ∃ table, (Attribute.Table.readCompat max a data.length).run = ⟨.ok (data, table), []⟩ ∧
        (∀ key, key ≤ max → table.get? key = children.find? fun child => child.type = key) ∧
        (children = [] → table = .empty max) := by
  obtain ⟨rfl, hwhole, hdeclarable⟩ :=
    eq_of_compat d.aligned_pad (openCompat_pad hopen) hchildren hclose
  let whole := Attribute.behindStruct type data children
  have hbytes : (d.pad.extend whole.encode).body.bytes = Wire.padded d.body.bytes ++ whole.encode :=
    rfl
  have hfront : (Wire.padded d.body.bytes).length = d.body.front := Wire.length_padded _
  have hwalk : Attribute.walk whole.encode = ⟨[whole], []⟩ := by
    have hone : Attribute.encodeAll [whole] = whole.encode := List.append_nil _
    rw [← hone]
    exact Attribute.walk_encodeAll fun a ha => List.mem_singleton.mp ha ▸ hwhole
  refine ⟨whole, rfl, ?_, ?_, fun max => ⟨_, Attribute.readCompat_behindStruct hwhole hdeclarable max,
    fun key hkey => Attribute.Table.get?_fileAll_zero hkey children, ?_⟩⟩
  · rw [hbytes, List.take_left' hfront]
  · rw [hbytes, List.drop_left' hfront, hwalk]
  · rintro rfl
    rfl

/-- A struct of five bytes and two children of one type. -/
theorem Draft.readCompat_of_written_sample :
    let children : List Attribute := [⟨2, [7]⟩, ⟨2, []⟩]
    let d₁ := (new 16 1).extend [9, 0, 3, 0, 1, 2, 3, 4, 5, 0, 0, 0, 4, 0, 3, 0]
    let d₂ := d₁.extend [5, 0, 2, 0, 7, 0, 0, 0, 4, 0, 2, 0]
    let d' := (new 16 1).extend [28, 0, 3, 0, 1, 2, 3, 4, 5, 0, 0, 0, 16, 0, 3, 0,
      5, 0, 2, 0, 7, 0, 0, 0, 4, 0, 2, 0]
    (new 16 1).openCompat 3 [1, 2, 3, 4, 5] = (.ok ⟨0, ⟨12⟩⟩, d₁) ∧
      children.foldlM add d₁ = .ok d₂ ∧ d₂.closeCompat ⟨0, ⟨12⟩⟩ = (.ok (), d') ∧
      ∃ a table, Attribute.walk d'.body.bytes = ⟨[a], []⟩ ∧
        (Attribute.Table.readCompat 4 a 5).run = ⟨.ok ([1, 2, 3, 4, 5], table), []⟩ ∧
        table.get? 2 = some ⟨2, [7]⟩ ∧ table.get? 3 = none := by
  intro children d₁ d₂ d'
  have hopen : (new 16 1).openCompat 3 [1, 2, 3, 4, 5] = (.ok ⟨0, ⟨12⟩⟩, d₁) := by rfl
  have hchildren : children.foldlM add d₁ = .ok d₂ := by
    simp only [children, d₁, d₂]
    rfl
  have hclose : d₂.closeCompat ⟨0, ⟨12⟩⟩ = (.ok (), d') := by
    simp only [d₁, d₂, d']
    rfl
  obtain ⟨a, -, -, hwalk, hread⟩ := readCompat_of_written hopen hchildren hclose
  obtain ⟨table, hrun, hfirst, -⟩ := hread 4
  exact ⟨hopen, hchildren, hclose, a, table, hwalk, hrun, hfirst 2 (by decide), hfirst 3 (by decide)⟩

end Netlink
