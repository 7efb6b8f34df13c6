import Netlink.Proofs.Draft.Appending
import Netlink.Proofs.Draft.Room
import Netlink.Proofs.Wire.Text

/-! # Values in, values out

What is appended to a draft is walked again from where the draft ended, padding included. So the
values that are filed there come back one by one, each by the reader of its own kind. -/

namespace Netlink

namespace Attribute

/-- What an attribute can be made of. -/
inductive Value where
  | u8 (v : UInt8)
  | u16 (v : UInt16)
  | u32 (v : UInt32)
  | u64 (v : UInt64)
  /-- In network byte order. -/
  | u16be (v : UInt16)
  /-- In network byte order. -/
  | u32be (v : UInt32)
  /-- No value: the attribute is there or it is not. -/
  | mark
  | text (s : String)
  deriving DecidableEq, Repr

namespace Value

/-- The attribute that files a value under a type. -/
def filed (type : UInt16) : Value → Attribute
  | .u8 v => ofU8 type v
  | .u16 v => ofU16 type v
  | .u32 v => ofU32 type v
  | .u64 v => ofU64 type v
  | .u16be v => ofU16be type v
  | .u32be v => ofU32be type v
  | .mark => Attribute.mark type
  | .text s => ofText type s

/-- What thirty-two bits stand for in two's complement. -/
def twosComplement (v : UInt32) : Int :=
  if v.toNat < 2147483648 then v.toNat else v.toNat - 4294967296

/-- The attribute gives the value when it is read as what the value is. A word is also there to be read
as a number with a sign, and a text as far as its first zero character. -/
def ReadFrom (a : Attribute) : Value → Prop
  | .u8 v => a.u8 = .ok v
  | .u16 v => a.u16 = .ok v
  | .u32 v => a.u32 = .ok v ∧ ∃ i, a.i32 = .ok i ∧ i.toInt = twosComplement v
  | .u64 v => a.u64 = .ok v
  | .u16be v => a.u16be = .ok v
  | .u32be v => a.u32be = .ok v
  | .mark => a.payload.isEmpty
  | .text s => a.text = .ok (textUntilNul s)

theorem toInt_toInt32 (v : UInt32) : v.toInt32.toInt = twosComplement v := by
  show v.toBitVec.toInt = twosComplement v
  have hvalue : v.toBitVec.toNat = v.toNat := rfl
  rw [BitVec.toInt_eq_toNat_cond, twosComplement, hvalue]
  by_cases hsmall : v.toNat < 2147483648
  · rw [if_pos hsmall, if_pos (by omega)]
  · rw [if_neg hsmall, if_neg (by omega)]
    rfl

theorem type_filed (type : UInt16) (v : Value) : (v.filed type).type = type := by
  cases v <;> rfl

/-- One case for each kind of value, with its own pair of writer and reader. -/
theorem readFrom_filed (type : UInt16) (v : Value) : v.ReadFrom (v.filed type) := by
  cases v with
  | u8 v => exact u8_ofU8 type v
  | u16 v => exact u16_ofU16 type v
  | u32 v => exact ⟨u32_ofU32 type v, v.toInt32, i32_ofU32 type v, toInt_toInt32 v⟩
  | u64 v => exact u64_ofU64 type v
  | u16be v => exact u16be_ofU16be type v
  | u32be v => exact u32be_ofU32be type v
  | mark => exact List.isEmpty_nil
  | text s => exact text_ofText_untilNul type s

end Value
end Attribute

namespace Draft

/-- The first append writes the padding that was missing, so that all find the draft on the grid. -/
theorem appendAll_pad {as : List Attribute} (h : as ≠ []) (d : Draft) :
    as.foldlM add d.pad = as.foldlM add d := by
  cases as with
  | nil => exact absurd rfl h
  | cons a as => rw [List.foldlM_cons, List.foldlM_cons, add_pad]

/-- From where a draft ended, padding included, stand the records of what was appended to it, and
nothing else. What it held stays in front of them. -/
theorem region_of_appended {d d' : Draft} {as : List Attribute}
    (h : as.foldlM add d = .ok d') :
    d'.encode.drop (headerSize + d.body.front) = Attribute.encodeAll as ∧
      (∀ a ∈ as, a.Declarable) ∧ d.body.bytes <+: d'.body.bytes := by
  cases as with
  | nil =>
    rw [← Except.ok.inj h]
    refine ⟨?_, List.forall_mem_nil _, List.prefix_rfl⟩
    refine List.drop_of_length_le ?_
    rw [encode, List.length_append, Header.length_encode]
    exact Nat.add_le_add_left (Wire.le_align4 _) _
  | cons a as =>
    rw [← appendAll_pad (List.cons_ne_nil a as)] at h
    obtain ⟨rfl, hdeclarable⟩ := eq_of_appended d.aligned_pad h
    have hbytes : (d.pad.extend (Attribute.encodeAll (a :: as))).body.bytes =
        Wire.padded d.body.bytes ++ Attribute.encodeAll (a :: as) := rfl
    have hfront : (Wire.padded d.body.bytes).length = d.body.front := Wire.length_padded _
    refine ⟨?_, hdeclarable, ?_⟩
    · rw [encode, ← List.drop_drop, List.drop_left' (Header.length_encode _), hbytes,
        List.drop_left' hfront]
    · rw [hbytes, Wire.padded, List.append_assoc]
      exact List.prefix_append ..

/-- **Values come back.** Whatever a draft holds, on the grid or not, if values are appended to it one
by one, each under a type, then the walk of what is behind it finds one attribute for each of them, in
order, of that type, from which the value is read back, and leaves nothing. What the draft held is
still in front of them. -/
theorem appended_values_readFrom {d d' : Draft} {vs : List (UInt16 × Attribute.Value)}
    (h : (vs.map fun v => v.2.filed v.1).foldlM add d = .ok d') :
    let w := Attribute.walk (d'.encode.drop (headerSize + d.body.front))
    w.rest = [] ∧ w.attributes.length = vs.length ∧
      (∀ (i : Nat) (type : UInt16) (v : Attribute.Value), vs[i]? = some (type, v) →
        ∃ a, w.attributes[i]? = some a ∧ a.type = type ∧ v.ReadFrom a) ∧
      d.body.bytes <+: d'.body.bytes := by
  intro w
  obtain ⟨hregion, hdeclarable, hbefore⟩ := region_of_appended h
  have hwalk : w = ⟨vs.map fun v => v.2.filed v.1, []⟩ := by
    show Attribute.walk (d'.encode.drop _) = _
    rw [hregion]
    exact Attribute.walk_encodeAll hdeclarable
  rw [hwalk]
  refine ⟨rfl, List.length_map .., ?_, hbefore⟩
  intro i type v hv
  refine ⟨v.filed type, ?_, v.type_filed type, v.readFrom_filed type⟩
  show (vs.map _)[i]? = _
  rw [List.getElem?_map, hv]
  rfl

/-- A draft that ends off the grid takes a word, a text with a zero character inside, and a mark. The
text comes back as far as that character. -/
theorem appended_values_readFrom_sample :
    let d : Draft := ⟨16, 1, 0, 0, ⟨headerSize, [7], 64⟩⟩
    let vs : List (UInt16 × Attribute.Value) :=
      [(3, .u32 0xfffffffe), (5, .text "ab\x00c"), (6, .mark)]
    ∃ d', (vs.map fun v => v.2.filed v.1).foldlM add d = .ok d' ∧
      (Attribute.walk (d'.encode.drop (headerSize + d.body.front))).attributes.length = 3 ∧
      ∃ a, (Attribute.walk (d'.encode.drop (headerSize + d.body.front))).attributes[1]? = some a ∧
        a.type = 5 ∧ a.text = .ok "ab" := by
  intro d vs
  have hdeclarable : ∀ a ∈ vs.map fun v => v.2.filed v.1, a.Declarable := by
    unfold Attribute.Declarable
    decide
  have hroom : (d.pad.extend (Attribute.encodeAll (vs.map fun v => v.2.filed v.1))).size ≤
      d.pad.capacity := by decide
  have happended := appended_of_room d.aligned_pad hdeclarable hroom
  rw [appendAll_pad (by decide)] at happended
  obtain ⟨-, hlength, hread, -⟩ := appended_values_readFrom happended
  obtain ⟨a, ha, htype, htext⟩ := hread 1 5 (.text "ab\x00c") rfl
  have hfront : textUntilNul "ab\x00c" = "ab" := by decide
  exact ⟨_, happended, hlength, a, ha, htype, hfront ▸ htext⟩

end Draft
end Netlink
