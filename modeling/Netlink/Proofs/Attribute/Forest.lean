import Netlink.Proofs.Attribute.Records

/-! # Forests of attributes

What a message says behind its fixed part is a forest: a list of trees, each of them a leaf with a
payload or a nest with a forest of its own. The shape is not on the wire, so a reader brings it
along; reading along the right shape gives back what was written. -/

namespace Netlink

/-- The first tree of a list and the trees behind it. -/
inductive Forest where
  | nil
  | leaf (type : UInt16) (payload : Bytes) (rest : Forest)
  | nest (type : UInt16) (children rest : Forest)
  deriving DecidableEq, Repr

namespace Forest

/-- The records of the trees, one behind another. -/
def encode : Forest → Bytes
  | nil => []
  | leaf type payload rest => Attribute.encode ⟨type, payload⟩ ++ rest.encode
  | nest type children rest => Attribute.encode ⟨type, children.encode⟩ ++ rest.encode

/-- The trees as attributes; the payload of a nest is the records of its children. -/
def attributes : Forest → List Attribute
  | nil => []
  | leaf type payload rest => ⟨type, payload⟩ :: rest.attributes
  | nest type children rest => ⟨type, children.encode⟩ :: rest.attributes

/-- Every record, at every depth, has a length that its length field can declare. -/
def Declarable : Forest → Prop
  | nil => True
  | leaf type payload rest => Attribute.Declarable ⟨type, payload⟩ ∧ rest.Declarable
  | nest type children rest =>
    Attribute.Declarable ⟨type, children.encode⟩ ∧ children.Declarable ∧ rest.Declarable

/-- Reads a walk along a shape: every leaf takes the attribute in its place as it is, every nest is
read further down. The walk must have as many attributes as the shape has trees and leave no bytes,
and so must the walks of all nests. -/
def readLike : Forest → Attribute.Walk → Option Forest
  | nil, w => if w.attributes = [] ∧ w.deficit = 0 then some nil else none
  | leaf _ _ rest, ⟨a :: as, left⟩ => do
    return leaf a.type a.payload (← rest.readLike ⟨as, left⟩)
  | nest _ children rest, ⟨a :: as, left⟩ => do
    return nest a.type (← children.readLike a.children) (← rest.readLike ⟨as, left⟩)
  | _, ⟨[], _⟩ => none

theorem encode_eq (f : Forest) : f.encode = Attribute.encodeAll f.attributes := by
  induction f with
  | nil => rfl
  | leaf type payload rest ih => rw [encode, ih, attributes, Attribute.encodeAll_cons]
  | nest type children rest _ ih => rw [encode, ih, attributes, Attribute.encodeAll_cons]

theorem length_encode_mod (f : Forest) : f.encode.length % 4 = 0 := by
  rw [encode_eq]
  exact Attribute.length_encodeAll_mod _

theorem Declarable.attributes {f : Forest} (h : f.Declarable) :
    ∀ a ∈ f.attributes, a.Declarable := by
  induction f with
  | nil => intro a ha; cases ha
  | leaf type payload rest ih =>
    intro a ha
    rcases List.mem_cons.mp ha with rfl | ha
    · exact h.1
    · exact ih h.2 a ha
  | nest type children rest _ ih =>
    intro a ha
    rcases List.mem_cons.mp ha with rfl | ha
    · exact h.1
    · exact ih h.2.2 a ha

/-- The records of a forest are walked to their end. -/
theorem walk_encode {f : Forest} (h : f.Declarable) :
    Attribute.walk f.encode = ⟨f.attributes, []⟩ := by
  rw [encode_eq]
  exact Attribute.walk_encodeAll h.attributes

/-- The trees are read back at every depth. -/
theorem readLike_attributes {f : Forest} (h : f.Declarable) :
    f.readLike ⟨f.attributes, []⟩ = some f := by
  induction f with
  | nil => rfl
  | leaf type payload rest ih =>
    rw [attributes, readLike, ih h.2]
    rfl
  | nest type children rest ihc ihr =>
    obtain ⟨_, hc, hr⟩ := h
    have hchildren : Attribute.children ⟨type, children.encode⟩ = ⟨children.attributes, []⟩ :=
      walk_encode hc
    rw [attributes, readLike, hchildren, ihc hc, ihr hr]
    rfl

theorem readLike_walk_encode {f : Forest} (h : f.Declarable) :
    f.readLike (Attribute.walk f.encode) = some f := by
  rw [walk_encode h]
  exact readLike_attributes h

end Forest
end Netlink
