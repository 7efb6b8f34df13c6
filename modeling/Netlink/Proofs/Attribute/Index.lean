import Netlink.Attribute.Table

/-! # What a table holds

A table that was filled from a list of attributes holds in each of its slots the first attribute of
the list that is filed under it, and nothing under a type that has no slot. So a table and a search
of the list find the same. -/

namespace Netlink.Attribute.Table

variable {t : Table} {type key : UInt16}

theorem size_file (t : Table) (type : UInt16) (a : Attribute) :
    (t.file type a).slots.size = t.slots.size := by
  unfold file
  split <;> simp

theorem size_empty (max : UInt16) : (empty max).slots.size = max.toNat + 1 := by
  simp [empty]

theorem get?_empty (max key : UInt16) : (empty max).get? key = none := by
  rw [get?, empty]
  dsimp only
  rw [Array.getElem?_replicate]
  split <;> rfl

/-- A slot that is empty takes the attribute; one that is not stays as it is. -/
theorem get?_file (hkey : key.toNat < t.slots.size) (a : Attribute) :
    (t.file type a).get? key = (t.get? key).or (if type = key then some a else none) := by
  have hslot : t.slots[key.toNat]? = some t.slots[key.toNat] := Array.getElem?_eq_getElem hkey
  by_cases hsame : type = key
  · subst hsame
    rw [if_pos rfl, file, get?, get?, hslot]
    cases hheld : t.slots[type.toNat] with
    | none => simp [hkey]
    | some held => simp [hslot, hheld]
  · have hother : type.toNat ≠ key.toNat := fun h => hsame (UInt16.toNat_inj.mp h)
    rw [if_neg hsame, Option.or_none, file]
    split
    · rw [get?, get?, Array.getElem?_setIfInBounds_ne hother]
    · rfl

/-- Each slot holds what it held before, or else the first attribute that is filed under it. -/
theorem get?_fileAll (hkey : key.toNat < t.slots.size) (clear : UInt16) (as : List Attribute) :
    (t.fileAll clear as).get? key =
      (t.get? key).or (as.find? fun a => a.type &&& ~~~clear = key) := by
  induction as generalizing t with
  | nil => exact Option.or_none.symm
  | cons a as ih =>
    rw [show t.fileAll clear (a :: as) = (t.file (a.type &&& ~~~clear) a).fileAll clear as from rfl,
      ih (by rwa [size_file]), get?_file hkey, Option.or_assoc, List.find?_cons]
    by_cases hsame : a.type &&& ~~~clear = key <;> simp [hsame]

/-- A slot of a table that was empty holds the first attribute that is filed under it. -/
theorem get?_fileAll_empty {max : UInt16} (hkey : key ≤ max) (clear : UInt16) (as : List Attribute) :
    ((empty max).fileAll clear as).get? key = as.find? fun a => a.type &&& ~~~clear = key := by
  have hslot : key.toNat < (empty max).slots.size := by
    rw [size_empty]
    exact Nat.lt_succ_of_le (UInt16.le_iff_toNat_le.mp hkey)
  rw [get?_fileAll hslot, get?_empty, Option.none_or]

theorem size_fileAll (t : Table) (clear : UInt16) (as : List Attribute) :
    (t.fileAll clear as).slots.size = t.slots.size := by
  induction as generalizing t with
  | nil => rfl
  | cons a as ih =>
    have hrest := ih (t.file (a.type &&& ~~~clear) a)
    rw [size_file] at hrest
    exact hrest

/-- There is nothing under a type that has no slot. -/
theorem get?_fileAll_of_gt {max : UInt16} (hkey : max < key) (clear : UInt16)
    (as : List Attribute) : ((empty max).fileAll clear as).get? key = none := by
  have hslots : ((empty max).fileAll clear as).slots.size ≤ key.toNat := by
    rw [size_fileAll, size_empty]
    exact UInt16.lt_iff_toNat_lt.mp hkey
  rw [get?, Array.getElem?_eq_none hslots]
  rfl

/-- Where no bits are cleared it is the first of its type. -/
theorem get?_fileAll_zero {max : UInt16} (hkey : key ≤ max) (as : List Attribute) :
    ((empty max).fileAll 0 as).get? key = as.find? fun a => a.type = key := by
  have hnothing (type : UInt16) : type &&& ~~~0 = type := by simp
  rw [get?_fileAll_empty hkey]
  simp only [hnothing]

theorem value_findFirst (type : UInt16) (bs : Bytes) :
    (findFirst type bs).value = (walk bs).attributes.find? fun a => a.type = type := by
  rw [findFirst]
  split
  · rename_i a hfound
    exact hfound.symm
  · rename_i hnone
    exact hnone.symm

/-- **A table and a search find the same attribute.** A table of any bytes, up to any highest type and
with any bits cleared, has under each type up to the highest the first attribute of the walk whose
type without these bits is that type, and nothing under any other. Where no bits are cleared, this is
what a search of the bytes for the type finds; and if the search finds none, it reports the bytes that
the walk left as the table does. -/
theorem lookups_agree (bs : Bytes) (max clear type : UInt16) :
    (readClearing clear max bs).value.get? type =
        (if type ≤ max then (walk bs).attributes.find? fun a => a.type &&& ~~~clear = type
          else none) ∧
      (read max bs).value.get? type = (if type ≤ max then (findFirst type bs).value else none) ∧
      (findFirst type bs).log =
        (if (findFirst type bs).value.isSome then [] else (read max bs).log) := by
  refine ⟨?_, ?_, ?_⟩
  · split
    · rename_i hslot
      exact get?_fileAll_empty hslot clear _
    · rename_i hslot
      exact get?_fileAll_of_gt (UInt16.not_le.mp hslot) clear _
  · split
    · rename_i hslot
      rw [value_findFirst]
      exact get?_fileAll_zero hslot _
    · rename_i hslot
      exact get?_fileAll_of_gt (UInt16.not_le.mp hslot) 0 _
  · rw [findFirst]
    split <;> rfl

/-- Of two attributes of one type the first is found. A marked one of the type is passed over by its
type as it stands, and stands before both once the mark is cleared. -/
example :
    let bs := encodeAll [⟨nestedFlag ||| 1, [5]⟩, ⟨1, [6]⟩, ⟨1, [7]⟩]
    (read 2 bs).value.get? 1 = some ⟨1, [6]⟩ ∧
      (readClearing nestedFlag 2 bs).value.get? 1 = some ⟨nestedFlag ||| 1, [5]⟩ ∧
      (findFirst 1 bs).value = some ⟨1, [6]⟩ := by
  decide +kernel

end Netlink.Attribute.Table
