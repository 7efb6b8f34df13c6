import Netlink.Draft.Script
import Netlink.Proofs.Attribute.Records

/-! # What writing adds

On a buffer that ends on the grid every write that succeeds appends the padded piece and nothing
else. A nest is first an attribute without payload; closing it where its header stands gives its
header the length of all that was written behind it, or takes all of it out again. -/

namespace Netlink

namespace Draft
namespace Buffer

/-- The buffer with more bytes behind its own. -/
def extend (b : Buffer) (bs : Bytes) : Buffer := { b with bytes := b.bytes ++ bs }

/-- The next piece begins where the bytes end. -/
def Aligned (b : Buffer) : Prop := b.bytes.length % 4 = 0

theorem extend_extend (b : Buffer) (xs ys : Bytes) :
    (b.extend xs).extend ys = b.extend (xs ++ ys) := by
  simp [extend]

theorem Aligned.extend {b : Buffer} {bs : Bytes} (h : b.Aligned) (hs : bs.length % 4 = 0) :
    (b.extend bs).Aligned := by
  have hb : b.bytes.length % 4 = 0 := h
  simp only [Aligned, Buffer.extend, List.length_append]
  omega

theorem Aligned.extend_header {b : Buffer} (h : b.Aligned) (header : AttributeHeader) :
    (b.extend header.encode).Aligned :=
  h.extend (by rw [AttributeHeader.length_encode]; rfl)

theorem Aligned.extend_attribute {b : Buffer} (h : b.Aligned) (a : Attribute) :
    (b.extend a.encode).Aligned :=
  h.extend (by rw [Attribute.length_encode]; exact Wire.align4_mod _)

theorem Aligned.front {b : Buffer} (h : b.Aligned) : b.front = b.bytes.length :=
  Wire.align4_of_mod h

/-- Wherever the bytes end, a write leaves them where they are. -/
theorem exists_extend_of_add {b b' : Buffer} {piece : Bytes} (h : b.add piece = .ok b') :
    ∃ added, b' = b.extend added := by
  rw [add_eq] at h
  split at h
  · contradiction
  · refine ⟨Wire.zeros (Wire.align4 b.bytes.length - b.bytes.length) ++ Wire.padded piece, ?_⟩
    rw [← Except.ok.inj h, extend, ← List.append_assoc]
    rfl

theorem exists_extend_of_addAttribute {b b' : Buffer} {a : Attribute}
    (h : b.addAttribute a = .ok b') : ∃ added, b' = b.extend added := by
  rw [addAttribute_eq] at h
  split at h
  · contradiction
  · exact exists_extend_of_add h

theorem length_of_add {b b' : Buffer} {piece : Bytes} (h : b.add piece = .ok b') :
    b'.bytes.length = b.front + Wire.align4 piece.length := by
  rw [bytes_add h, List.length_append, Wire.length_padded, Wire.length_padded]
  rfl

theorem length_of_addAttribute {b b' : Buffer} {a : Attribute} (h : b.addAttribute a = .ok b') :
    b'.bytes.length = b.front + Wire.align4 a.recordSize := by
  rw [addAttribute_eq] at h
  split at h
  · contradiction
  · rw [length_of_add h, List.length_append, AttributeHeader.length_encode]
    rfl

theorem add_eq_ok {b b' : Buffer} {piece : Bytes} (ha : b.Aligned) (h : b.add piece = .ok b') :
    b' = b.extend (Wire.padded piece) ∧ b'.size ≤ b'.capacity := by
  refine ⟨?_, size_add_le h⟩
  rw [add_eq] at h
  split at h
  · contradiction
  · rw [← Except.ok.inj h, Wire.padded_of_mod ha]
    rfl

theorem addAttribute_eq_ok {b b' : Buffer} {a : Attribute} (ha : b.Aligned)
    (h : b.addAttribute a = .ok b') :
    b' = b.extend a.encode ∧ a.Declarable ∧ b'.size ≤ b'.capacity := by
  rw [addAttribute_eq] at h
  split at h
  · contradiction
  · rename_i hfits
    obtain ⟨heq, hroom⟩ := add_eq_ok ha h
    refine ⟨heq, ?_, hroom⟩
    simp only [Attribute.Declarable, UInt16.size, maxRecord] at hfits ⊢
    omega

theorem cut_extend (b : Buffer) (bs : Bytes) : (b.extend bs).cut b.bytes.length = b := by
  simp [cut, extend]

theorem sizeFrom_extend (b : Buffer) (bs : Bytes) :
    (b.extend bs).sizeFrom b.bytes.length = bs.length := by
  simp [sizeFrom, extend]

/-- The length of the attribute whose header begins the new bytes is written over. -/
theorem setLength_extend (b : Buffer) (header : AttributeHeader) (body : Bytes) {length : Nat}
    (h : length ≤ maxRecord) :
    (b.extend (header.encode ++ body)).setLength b.bytes.length length =
      .ok (b.extend (AttributeHeader.encode ⟨UInt16.ofNat length, header.type⟩ ++ body)) := by
  have hafter : (b.bytes ++ (header.encode ++ body)).drop (b.bytes.length + 2) =
      Wire.le16 header.type ++ body := by
    rw [← List.drop_drop, List.drop_left, AttributeHeader.encode, List.append_assoc]
    exact Wire.drop_le16_append header.length _ 0
  have hbefore : (b.bytes ++ (header.encode ++ body)).take b.bytes.length = b.bytes :=
    List.take_left
  unfold setLength
  rw [if_neg (by omega)]
  dsimp only [extend]
  rw [hbefore, hafter]
  simp only [AttributeHeader.encode, List.append_assoc]

/-- A length that is written behind other bytes leaves them alone. -/
theorem setLength_behind (front : Bytes) (b : Buffer) (offset length : Nat) :
    setLength ⟨0, front ++ b.bytes, b.capacity⟩ (front.length + offset) length =
      (b.setLength offset length).map fun b' => ⟨0, front ++ b'.bytes, b'.capacity⟩ := by
  unfold setLength
  split
  · rfl
  · dsimp only [Except.map]
    rw [List.take_length_add_append, Nat.add_assoc, List.drop_length_add_append]
    simp only [List.append_assoc]

theorem setLength_of_gt {b : Buffer} {offset length : Nat} (h : maxRecord < length) :
    b.setLength offset length = .error (.invalidAttribute (.nestTooLong length)) := by
  rw [setLength, if_pos h]

end Buffer

/-- A draft as it is made: by a type and flags, from a header, or with a capacity of its own. -/
inductive Fresh : Draft → Prop
  | new (type flags : UInt16) : Fresh (new type flags)
  | ofHeader (h : Header) : Fresh (ofHeader h)
  | withCapacity (type flags : UInt16) (capacity : Nat) : Fresh (withCapacity type flags capacity)

theorem Fresh.bytes {d : Draft} (h : Fresh d) : d.body.bytes = [] := by
  cases h <;> rfl

theorem Fresh.base {d : Draft} (h : Fresh d) : d.body.base = headerSize := by
  cases h <;> rfl

theorem Fresh.aligned {d : Draft} (h : Fresh d) : d.body.Aligned := by
  rw [Buffer.Aligned, h.bytes]
  rfl

theorem length_encode (d : Draft) : d.encode.length = headerSize + d.body.bytes.length := by
  simp [encode]

/-- The draft with more bytes behind its own. -/
def extend (d : Draft) (bs : Bytes) : Draft := { d with body := d.body.extend bs }

theorem extend_extend (d : Draft) (xs ys : Bytes) :
    (d.extend xs).extend ys = d.extend (xs ++ ys) := by
  simp only [extend, Buffer.extend_extend]

/-! ## Writes that succeed -/

theorem append_of_add {d d' : Draft} {a : Attribute} (h : d.add a = .ok d') :
    d.append a = (.ok (), d') := map_achieved_eq_ok_iff.mp h

theorem add_of_append {d d' : Draft} {a : Attribute} (h : d.append a = (.ok (), d')) :
    d.add a = .ok d' := map_achieved_eq_ok_iff.mpr h

theorem addRaw_eq_ok_iff {d d' : Draft} {data : Bytes} :
    d.addRaw data = .ok d' ↔ ∃ b, d.body.add data = .ok b ∧ { d with body := b } = d' := by
  rw [addRaw_eq]
  cases d.body.add data <;> simp [Except.map]

theorem add_eq_ok_iff {d d' : Draft} {a : Attribute} :
    d.add a = .ok d' ↔ ∃ b, d.body.addAttribute a = .ok b ∧ { d with body := b } = d' := by
  rw [add_eq]
  cases d.body.addAttribute a <;> simp [Except.map]

theorem addNest_eq_ok_iff {d d' : Draft} {type : UInt16} {mark : Mark} :
    d.addNest type = .ok (mark, d') ↔ d.add (.mark type) = .ok d' ∧ ⟨d.body.front⟩ = mark := by
  rw [addNest_eq]
  cases d.add (.mark type) <;> simp [Except.map, and_comm]

theorem exists_extend_of_addRaw {d d' : Draft} {data : Bytes} (h : d.addRaw data = .ok d') :
    ∃ added, d' = d.extend added := by
  obtain ⟨b, hb, rfl⟩ := addRaw_eq_ok_iff.mp h
  obtain ⟨added, rfl⟩ := Buffer.exists_extend_of_add hb
  exact ⟨added, rfl⟩

theorem exists_extend_of_add {d d' : Draft} {a : Attribute} (h : d.add a = .ok d') :
    ∃ added, d' = d.extend added := by
  obtain ⟨b, hb, rfl⟩ := add_eq_ok_iff.mp h
  obtain ⟨added, rfl⟩ := Buffer.exists_extend_of_addAttribute hb
  exact ⟨added, rfl⟩

theorem length_of_add {d d' : Draft} {a : Attribute} (h : d.add a = .ok d') :
    d'.body.bytes.length = d.body.front + Wire.align4 a.recordSize := by
  obtain ⟨b, hb, rfl⟩ := add_eq_ok_iff.mp h
  exact Buffer.length_of_addAttribute hb

theorem length_of_addNest {d d' : Draft} {type : UInt16} {mark : Mark}
    (h : d.addNest type = .ok (mark, d')) :
    d'.body.bytes.length = d.body.front + Attribute.headerSize := by
  have hsize : Attribute.recordSize (.mark type) = Attribute.headerSize := rfl
  rw [length_of_add (addNest_eq_ok_iff.mp h).1, hsize]
  rfl

theorem exists_extend_of_addNest {d d' : Draft} {type : UInt16} {mark : Mark}
    (h : d.addNest type = .ok (mark, d')) :
    mark = ⟨d.body.front⟩ ∧ ∃ added, d' = d.extend added := by
  obtain ⟨hadd, hmark⟩ := addNest_eq_ok_iff.mp h
  exact ⟨hmark.symm, exists_extend_of_add hadd⟩

theorem addRaw_eq_ok {d d' : Draft} {data : Bytes} (ha : d.body.Aligned)
    (h : d.addRaw data = .ok d') : d' = d.extend (Wire.padded data) := by
  obtain ⟨b, hb, rfl⟩ := addRaw_eq_ok_iff.mp h
  rw [(Buffer.add_eq_ok ha hb).1]
  rfl

theorem add_eq_ok {d d' : Draft} {a : Attribute} (ha : d.body.Aligned)
    (h : d.add a = .ok d') : d' = d.extend a.encode ∧ a.Declarable := by
  obtain ⟨b, hb, rfl⟩ := add_eq_ok_iff.mp h
  obtain ⟨rfl, hsize, _⟩ := Buffer.addAttribute_eq_ok ha hb
  exact ⟨rfl, hsize⟩

theorem addNest_eq_ok {d d' : Draft} {type : UInt16} {mark : Mark} (ha : d.body.Aligned)
    (h : d.addNest type = .ok (mark, d')) :
    mark = ⟨d.body.bytes.length⟩ ∧ d' = d.extend (AttributeHeader.ofSize type 0).encode := by
  obtain ⟨hadd, rfl⟩ := addNest_eq_ok_iff.mp h
  obtain ⟨rfl, _⟩ := add_eq_ok ha hadd
  have hempty : Attribute.encode (.mark type) = (AttributeHeader.ofSize type 0).encode := by
    rw [Attribute.encode_of_mod rfl]
    exact List.append_nil _
  rw [ha.front, hempty]
  exact ⟨rfl, rfl⟩

/-! ## Writes that fail -/

theorem appendRaw_error {d d' : Draft} {data : Bytes} {e : Error}
    (h : d.appendRaw data = (.error e, d')) : d' = d := by
  rw [appendRaw, Buffer.put_eq] at h
  cases hadd : d.body.add data with
  | ok b =>
    rw [hadd] at h
    cases h
  | error e' =>
    rw [hadd] at h
    exact (congrArg Prod.snd h).symm

theorem append_error {d d' : Draft} {a : Attribute} {e : Error}
    (h : d.append a = (.error e, d')) : d' = d := by
  rw [append, Buffer.putAttribute_eq] at h
  cases hadd : d.body.addAttribute a with
  | ok b =>
    rw [hadd] at h
    cases h
  | error e' =>
    rw [hadd] at h
    exact (congrArg Prod.snd h).symm

theorem openNest_error {d d' : Draft} {type : UInt16} {e : Error}
    (h : d.openNest type = (.error e, d')) : d' = d := by
  unfold openNest at h
  cases happend : d.append (.mark type) with
  | mk outcome d₁ =>
    rw [happend] at h
    cases outcome with
    | ok _ => cases h
    | error e' =>
      cases h
      exact append_error happend

/-- A nest behind a struct is opened by two writes. -/
theorem openCompat_eq_ok_iff {d d' : Draft} {type : UInt16} {data : Bytes} {mark : CompatMark} :
    d.openCompat type data = (.ok mark, d') ↔
      ∃ outer, d.add ⟨type, data⟩ = .ok outer ∧ outer.addNest type = .ok (mark.inner, d') ∧
        mark.outer = d.body.front := by
  constructor
  · intro h
    unfold openCompat at h
    split at h
    · cases h
    · rename_i outer houter
      split at h
      · rename_i inner d₂ hinner
        cases h
        exact ⟨outer, add_of_append houter, achieved_eq_ok_iff.mpr hinner, rfl⟩
      · cases h
  · rintro ⟨outer, houter, hinner, hfront⟩
    rw [openCompat, append_of_add houter]
    dsimp only
    rw [achieved_eq_ok_iff.mp hinner, ← hfront]

/-- If either of the two writes fails, what the first has written is gone. -/
theorem openCompat_error {d d' : Draft} {type : UInt16} {data : Bytes} {e : Error}
    (h : d.openCompat type data = (.error e, d')) : d' = d := by
  unfold openCompat at h
  split at h
  · rename_i e₁ d₁ houter
    cases h
    exact append_error houter
  · rename_i outer houter
    obtain ⟨added, rfl⟩ := exists_extend_of_add (add_of_append houter)
    split at h
    · cases h
    · rename_i e₂ d₂ hinner
      cases h
      rw [openNest_error hinner, extend, Buffer.cut_extend]

namespace Work

/-- What a step comes to that appends something, or else changes nothing. -/
def settled (w : Work) : Except Error Draft → Except Error Product × Work
  | .ok draft => (.ok .nothing, { w with draft })
  | .error e => (.error e, w)

theorem settle_eq (w : Work) {change : Except Error Unit × Draft}
    (h : ∀ e d, change = (.error e, d) → d = w.draft) :
    w.settle change.1 change.2 = w.settled ((achieved change).map (·.2)) := by
  obtain ⟨outcome, draft⟩ := change
  cases outcome with
  | ok _ => rfl
  | error e =>
    obtain rfl := h e draft rfl
    rfl

theorem step_appendRaw (w : Work) (data : Bytes) :
    w.step (.appendRaw data) = w.settled (w.draft.addRaw data) :=
  w.settle_eq fun _ _ => appendRaw_error

theorem step_append (w : Work) (a : Attribute) :
    w.step (.append a) = w.settled (w.draft.add a) :=
  w.settle_eq fun _ _ => append_error

theorem step_appendTree (w : Work) (type : UInt16) (capacity : Nat) (steps : List Tree.Step) :
    w.step (.appendTree type capacity steps) = w.settled
      (Tree.Work.build ⟨Tree.new type capacity, []⟩ steps >>= fun work =>
        w.draft.addTree work.tree) := by
  rw [step]
  cases Tree.Work.build ⟨Tree.new type capacity, []⟩ steps with
  | ok work => exact w.settle_eq fun _ _ => appendRaw_error
  | error e => rfl

theorem step_openNest (w : Work) (type : UInt16) :
    w.step (.openNest type) = match w.draft.addNest type with
      | .ok (mark, draft) => w.settleOpen (.ok (.plain mark)) draft
      | .error e => (.error e, w) := by
  rw [step, addNest]
  cases hopen : w.draft.openNest type with
  | mk outcome draft =>
    cases outcome with
    | ok mark => rfl
    | error e =>
      obtain rfl := openNest_error hopen
      rfl

theorem step_openCompat (w : Work) (type : UInt16) (data : Bytes) :
    w.step (.openCompat type data) = match w.draft.openCompat type data with
      | (.ok mark, draft) => w.settleOpen (.ok (.compat mark)) draft
      | (.error e, _) => (.error e, w) := by
  unfold step
  dsimp only
  split
  · rename_i mark draft hopen
    rw [hopen]
    rfl
  · rename_i e draft hopen
    rw [hopen, openCompat_error hopen]
    rfl

end Work

/-! ## Closing -/

/-- Closing a nest where its header stands. -/
theorem closeNest_extend (d : Draft) (header : AttributeHeader) (body : Bytes) :
    (d.extend (header.encode ++ body)).closeNest ⟨d.body.bytes.length⟩ =
      if maxRecord < Attribute.headerSize + body.length then
        (.error (.invalidAttribute (.nestTooLong (Attribute.headerSize + body.length))), d)
      else (.ok (Attribute.headerSize + body.length),
        d.extend ((AttributeHeader.ofSize header.type body.length).encode ++ body)) := by
  have hsize : (header.encode ++ body).length = Attribute.headerSize + body.length := by simp
  simp only [closeNest, extend, Buffer.sizeFrom_extend, hsize, Buffer.cut_extend]
  split
  · rename_i b hb
    split
    · rename_i hlong
      rw [Buffer.setLength_of_gt hlong] at hb
      contradiction
    · rename_i hfits
      rw [Buffer.setLength_extend _ _ _ (by omega)] at hb
      rw [← Except.ok.inj hb]
      rfl
  · rename_i e he
    split
    · rename_i hlong
      rw [Buffer.setLength_of_gt hlong] at he
      rw [← Except.error.inj he]
    · rename_i hfits
      rw [Buffer.setLength_extend _ _ _ (by omega)] at he
      contradiction

/-- A nest behind a struct is closed on the body without an empty inner attribute: either both
lengths are written, or the outer one alone, or else everything from the outer attribute on is cut. -/
theorem closeCompat_cases (d : Draft) (mark : CompatMark) :
    let base := if d.body.sizeFrom mark.inner.offset = Attribute.headerSize then
      d.body.cut mark.inner.offset else d.body
    ∃ b, (d.closeCompat mark).2 = { d with body := b } ∧
      ((∃ e, (d.closeCompat mark).1 = .error e) ∧ b = base.cut mark.outer ∨
        (d.closeCompat mark).1 = .ok () ∧
          ∃ b₁, base.setLength mark.outer (base.sizeFrom mark.outer) = .ok b₁ ∧
            (b = b₁ ∨ base = d.body ∧ ∃ length, b₁.setLength mark.inner.offset length = .ok b)) := by
  intro base
  unfold closeCompat
  dsimp only
  split
  · rename_i b hb
    refine ⟨b, rfl, .inr ⟨rfl, ?_⟩⟩
    obtain ⟨b₁, hb₁, hb⟩ := bind_eq_ok.mp hb
    refine ⟨b₁, hb₁, ?_⟩
    split at hb
    · exact .inl (Except.ok.inj hb).symm
    · rename_i hkept
      exact .inr ⟨if_neg hkept, _, hb⟩
  · rename_i e _
    exact ⟨_, rfl, .inl ⟨⟨e, rfl⟩, rfl⟩⟩

end Draft
end Netlink
