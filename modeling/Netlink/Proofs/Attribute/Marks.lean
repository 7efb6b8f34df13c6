import Netlink.Proofs.Draft.Aside

/-! # Marks of nests

The mark of a nest is a bit of its type. Who looks at types as they stand takes a marked nest for
something else than the same nest without its mark. -/

namespace Netlink

namespace Attribute

/-- The attribute with the mark of a nest. -/
def marked (a : Attribute) : Attribute := { a with type := a.type ||| nestedFlag }

/-- A type without the mark of a nest. The flag for network byte order stays. -/
def plainType (type : UInt16) : UInt16 := type &&& ~~~nestedFlag

theorem marksNest_marked (type : UInt16) : marksNest (type ||| nestedFlag) = true := by
  have habsorbed : (type ||| nestedFlag) &&& nestedFlag = nestedFlag := by
    refine UInt16.eq_of_toBitVec_eq (BitVec.eq_of_getLsbD_eq fun i _ => ?_)
    simp only [UInt16.toBitVec_and, UInt16.toBitVec_or, BitVec.getLsbD_and, BitVec.getLsbD_or]
    cases type.toBitVec.getLsbD i <;> cases nestedFlag.toBitVec.getLsbD i <;> rfl
  rw [marksNest, habsorbed]
  rfl

/-- A type without the mark is none with it. -/
theorem marked_ne {type other : UInt16} (h : marksNest other = false) :
    type ||| nestedFlag ≠ other := by
  intro heq
  rw [← heq, marksNest_marked] at h
  cases h

end Attribute

namespace Forest

/-- The leaves at the top of a forest. -/
def leaves : Forest → List Attribute
  | nil => []
  | leaf type payload rest => ⟨type, payload⟩ :: rest.leaves
  | nest _ _ rest => rest.leaves

theorem declarable_leaves {f : Forest} (h : f.marked.Declarable) :
    ∀ a ∈ f.leaves, a.Declarable := by
  induction f with
  | nil => exact List.forall_mem_nil _
  | leaf type payload rest ih => exact List.forall_mem_cons.mpr ⟨h.1, ih h.2⟩
  | nest type children rest _ ih => exact ih h.2.2

/-- Where all nests are marked, only a leaf can have a type without the mark. -/
theorem find?_marked (f : Forest) {type : UInt16} (h : Attribute.marksNest type = false) :
    f.marked.attributes.find? (·.type = type) = f.leaves.find? (·.type = type) := by
  induction f with
  | nil => rfl
  | leaf own payload rest ih =>
    simp only [marked, attributes, leaves, List.find?_cons, ih]
  | nest own children rest _ ih =>
    have hother : own ||| Attribute.nestedFlag ≠ type := Attribute.marked_ne h
    simp [marked, attributes, leaves, hother, ih]

end Forest
end Netlink
