import Netlink.Attribute.Walk

/-! # Attributes indexed by type

A reader that knows which types it wants looks them up in a table. The table has one slot for each
type up to a highest one; a slot holds the first attribute of its type, and later ones of the type,
like those of higher types, are passed over. Bits of the type can be cleared before it is looked
at, so that a nest is found whether or not it is marked as one. -/

namespace Netlink.Attribute

/-- One slot for each type from zero to the highest one. -/
structure Table where
  slots : Array (Option Attribute)
  nonempty : 0 < slots.size

namespace Table

def empty (max : UInt16) : Table := ⟨Array.replicate (max.toNat + 1) none, by simp⟩

def get? (t : Table) (type : UInt16) : Option Attribute := (t.slots[type.toNat]?).join

def contains (t : Table) (type : UInt16) : Bool := (t.get? type).isSome

/-- The highest type that has a slot. -/
def maxType (t : Table) : Nat := t.slots.size - 1

/-- Files an attribute under a type, unless the type has no slot or an attribute already. -/
def file (t : Table) (type : UInt16) (a : Attribute) : Table :=
  if t.slots[type.toNat]? = some none then
    ⟨t.slots.setIfInBounds type.toNat (some a), by simpa using t.nonempty⟩
  else t

/-- Files attributes in order, each under its type without the bits of `clear`. -/
def fileAll (t : Table) (clear : UInt16) (as : List Attribute) : Table :=
  as.foldl (fun t a => t.file (a.type &&& ~~~clear) a) t

/-- The table of a list of attributes, with the bits of `clear` taken off each type. Trailing bytes
are reported. -/
def readClearing (clear max : UInt16) (bs : Bytes) : Logged Table :=
  let w := walk bs
  ⟨(empty max).fileAll clear w.attributes, deficitReport w.rest⟩

def read (max : UInt16) (bs : Bytes) : Logged Table := readClearing 0 max bs

def readNested (max : UInt16) (a : Attribute) : Logged Table := read max a.payload

/-- The leading `size` bytes of a payload, and the table of the attributes inside the attribute that
may follow them on the next multiple of four. -/
def readCompat (max : UInt16) (a : Attribute) (size : Nat) : Decoded (Bytes × Table) :=
  match Wire.split? size a.payload with
  | none => throw (.truncated size a.payload.length)
  | some (head, _) =>
    match next? (a.payload.drop (Wire.align4 size)) with
    | some (nest, _) => do return (head, ← readNested max nest)
    | none => return (head, empty max)

/-- The types that are present and their attributes, in ascending order of type. -/
def entries (t : Table) : List (Nat × Attribute) :=
  t.slots.toList.zipIdx.filterMap fun (slot, index) => slot.map (index, ·)

end Table
end Netlink.Attribute
