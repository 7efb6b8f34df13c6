import Netlink.Draft.Basic
import Netlink.Message.Ack
import Netlink.Proofs.Wire.Records

/-! # Failures of contents

A message that cannot be built and bytes that cannot be read fail for what they are made of. Such a
failure never says that a conversation cannot go on, is never a refusal by the kernel, and where it
calls something truncated there is less of it than was expected. -/

namespace Netlink

/-- What the failure calls truncated is shorter than it should be. -/
def Error.Short : Error → Prop
  | .truncated expected actual => actual < expected
  | _ => True

/-- The failure is about what is read or written, and rightly calls it truncated if it does. -/
def Error.ofContents : Error → Bool
  | .truncated expected actual => actual < expected
  | .messageFull .. | .invalidMessage _ | .invalidAttribute _ => true
  | _ => false

theorem Error.isFatal_of_ofContents {e : Error} (h : e.ofContents = true) : e.isFatal = false := by
  cases e with
  | framing | endOfFile => cases h
  | _ => rfl

theorem Error.errno?_of_ofContents {e : Error} (h : e.ofContents = true) : e.errno? = none := by
  cases e with
  | kernel | kernelDuring => cases h
  | _ => rfl

theorem Error.short_of_ofContents {e : Error} (h : e.ofContents = true) : e.Short := by
  cases e with
  | truncated expected actual =>
    have hshort : actual < expected := of_decide_eq_true h
    exact hshort
  | _ => trivial

/-- Where it fails, what it was made of is at fault. -/
def FailsOnContents {α : Type} (x : Except Error α) : Prop :=
  ∀ e, x = .error e → e.ofContents = true

namespace FailsOnContents

variable {α β : Type}

theorem ok (a : α) : FailsOnContents (.ok a) := by
  intro e he
  cases he

theorem error {e : Error} (h : e.ofContents = true) :
    FailsOnContents (.error e : Except Error α) := by
  rintro e' ⟨⟩
  exact h

theorem bind {x : Except Error α} {f : α → Except Error β} (hx : FailsOnContents x)
    (hf : ∀ a, FailsOnContents (f a)) : FailsOnContents (x.bind f) := by
  cases x with
  | error e => exact error (hx e rfl)
  | ok a => exact hf a

theorem map {x : Except Error α} (f : α → β) (hx : FailsOnContents x) :
    FailsOnContents (x.map f) := by
  cases x with
  | error e => exact error (hx e rfl)
  | ok a => exact ok (f a)

/-- A record that is read from the front of some bytes fails only for want of bytes. -/
theorem ofFront {size : Nat} {bs : Bytes} (read : Bytes → α) :
    FailsOnContents (match Wire.split? size bs with
      | some (front, _) => .ok (read front)
      | none => .error (.truncated size bs.length) : Except Error α) := by
  cases hsplit : Wire.split? size bs with
  | some split => exact .ok _
  | none => exact .error (decide_eq_true (Wire.split?_eq_none_iff.mp hsplit))

end FailsOnContents

namespace Attribute

variable (a : Attribute)

theorem failsOnContents_number {α : Type} (width : Scalar) (size : Nat) (read : Bytes → α) :
    FailsOnContents (a.number width size read) := by
  unfold number
  split
  · exact .ok _
  · exact .error rfl

theorem failsOnContents_u8 : FailsOnContents a.u8 := by
  unfold u8
  split
  · exact .ok _
  · exact .error rfl

theorem failsOnContents_text : FailsOnContents a.text := by
  unfold text
  split
  · exact .ok _
  · exact .error rfl

end Attribute

theorem AttributeHeader.failsOnContents_decode (bs : Bytes) : FailsOnContents (decode bs) :=
  .ofFront ofBytes

theorem Header.failsOnContents_decode (bs : Bytes) : FailsOnContents (decode bs) :=
  .ofFront ofBytes

theorem ErrorReply.failsOnContents_decode (payload : Bytes) : FailsOnContents (decode payload) :=
  .ofFront ofBytes

namespace Draft

theorem Buffer.failsOnContents_add (b : Buffer) (piece : Bytes) : FailsOnContents (b.add piece) := by
  rw [Buffer.add_eq]
  split
  · exact .error rfl
  · exact .ok _

theorem failsOnContents_addRaw (d : Draft) (data : Bytes) : FailsOnContents (d.addRaw data) := by
  rw [addRaw_eq]
  exact .map _ (d.body.failsOnContents_add data)

theorem failsOnContents_add (d : Draft) (a : Attribute) : FailsOnContents (d.add a) := by
  rw [add_eq, Buffer.addAttribute_eq]
  refine .map _ ?_
  split
  · exact .error rfl
  · exact d.body.failsOnContents_add _

end Draft
end Netlink
