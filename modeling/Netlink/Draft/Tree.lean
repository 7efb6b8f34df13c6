import Netlink.Draft.Buffer

/-! # An attribute built on its own

A tree of attributes can be put together before it is known which message it goes into. Its
capacity never passes what the length field of an attribute can declare, so closing a nest inside
it cannot fail for want of room in that field. -/

namespace Netlink.Draft

/-- An attribute under construction. -/
structure Tree where
  type : UInt16
  children : Buffer
  deriving DecidableEq, Repr

/-- A nest inside a tree that has been opened: where its header stands. -/
structure Tree.Mark where
  offset : Nat
  deriving DecidableEq, Repr

namespace Tree

/-- An attribute without children, for at most `capacity` bytes. -/
def new (type : UInt16) (capacity : Nat) : Tree :=
  ⟨type, ⟨Attribute.headerSize, [], max Attribute.headerSize (min capacity maxRecord)⟩⟩

def append (t : Tree) (a : Attribute) : Except Error Tree := do
  return { t with children := ← t.children.addAttribute a }

/-- Opens a child for children of its own, and marks it as a nest. -/
def openNest (t : Tree) (type : UInt16) : Except Error (Mark × Tree) := do
  let t' ← t.append ⟨type ||| Attribute.nestedFlag, []⟩
  return (⟨t.children.front⟩, t')

/-- Closes a child, which then reaches to the end of the tree; the result is its length. -/
def closeNest (t : Tree) (mark : Mark) : Except Error (Nat × Tree) := do
  let length := t.children.sizeFrom mark.offset
  return (length, { t with children := ← t.children.setLength mark.offset length })

def size (t : Tree) : Nat := t.children.size

def isEmpty (t : Tree) : Bool := t.children.bytes.isEmpty

/-- The attribute, header included. -/
def encode (t : Tree) : Bytes :=
  (AttributeHeader.ofSize t.type t.children.bytes.length).encode ++ t.children.bytes

end Tree
end Netlink.Draft
