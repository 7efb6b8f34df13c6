import Netlink.Link.Requests
import Netlink.Proofs.Message.Contents

/-! # Reading interfaces

What a decoding comes to is what its steps come to, one behind another. A payload that describes no
interface makes a reading fail, and no more than that: the failure never says that a conversation
cannot go on. -/

namespace Netlink

namespace Decoded

variable {α β : Type}

theorem result_bind (x : Decoded α) (f : α → Decoded β) :
    (x >>= f).result = x.result.bind fun a => (f a).result := by
  obtain ⟨value, log⟩ := x
  cases value <;> rfl

theorem ofExcept_ok (a : α) : ofExcept (.ok a) = pure a := rfl

/-- Where it fails, the failure is not of the fatal kind. -/
def Harmless (x : Decoded α) : Prop := ∀ e, x.result = .error e → e.isFatal = false

theorem failsOnContents_bind {x : Decoded α} {f : α → Decoded β} (hx : FailsOnContents x.result)
    (hf : ∀ a, FailsOnContents (f a).result) : FailsOnContents (x >>= f).result := by
  rw [result_bind]
  exact .bind hx hf

end Decoded

namespace Link

open Decoded (failsOnContents_bind)

theorem failsOnContents_field {α : Type} (t : Attribute.Table) (type : UInt16)
    {read : Attribute → Except Error α} (h : ∀ a, FailsOnContents (read a)) :
    FailsOnContents (field t type read) := by
  unfold field
  split
  · exact .ok _
  · exact .map some (h _)

theorem failsOnContents_info (payload : Bytes) : FailsOnContents (InterfaceInfo.decode payload) :=
  .ofFront InterfaceInfo.ofBytes

theorem failsOnContents_readKind (t : Attribute.Table) : FailsOnContents (readKind t).result := by
  unfold readKind
  split
  · exact .ok none
  · exact failsOnContents_bind (.ok _) fun inner =>
      failsOnContents_field inner kindType Attribute.failsOnContents_text

theorem failsOnContents_read (payload : Bytes) : FailsOnContents (read payload).result := by
  have hnumber (t : Attribute.Table) (type : UInt16) :
      FailsOnContents (Decoded.ofExcept (field t type Attribute.u32)).result :=
    failsOnContents_field t type fun a => a.failsOnContents_number _ _ _
  have htext (t : Attribute.Table) (type : UInt16) :
      FailsOnContents (Decoded.ofExcept (field t type Attribute.text)).result :=
    failsOnContents_field t type Attribute.failsOnContents_text
  have hbyte (t : Attribute.Table) (type : UInt16) :
      FailsOnContents (Decoded.ofExcept (field t type Attribute.u8)).result :=
    failsOnContents_field t type Attribute.failsOnContents_u8
  refine failsOnContents_bind (failsOnContents_info payload) fun info => ?_
  refine failsOnContents_bind (.ok _) fun table => ?_
  refine failsOnContents_bind (failsOnContents_readKind table) fun kind => ?_
  refine failsOnContents_bind (htext table nameType) fun name => ?_
  refine failsOnContents_bind (hnumber table mtuType) fun mtu => ?_
  refine failsOnContents_bind (hnumber table queueLengthType) fun length => ?_
  refine failsOnContents_bind (hbyte table operStateType) fun state => ?_
  refine failsOnContents_bind (hnumber table masterType) fun master => ?_
  exact failsOnContents_bind (hnumber table lowerType) fun lower => .ok _

/-- A payload that cannot be read does not end a conversation. -/
theorem harmless_read (payload : Bytes) : (read payload).Harmless :=
  fun e he => Error.isFatal_of_ofContents (failsOnContents_read payload e he)

theorem failsOnContents_readMessage (bytes : Bytes) :
    FailsOnContents (readMessage bytes).result := by
  refine failsOnContents_bind (Header.failsOnContents_decode bytes) fun header => ?_
  dsimp only
  split
  · exact failsOnContents_bind (.error rfl) fun _ => failsOnContents_read _
  · exact failsOnContents_read _

/-! ## Requests -/

theorem failsOnContents_namedRequest (type : UInt16) (info : InterfaceInfo) (name : String) :
    FailsOnContents (namedRequest type info name) :=
  .bind (Draft.failsOnContents_addRaw _ _) fun d => d.failsOnContents_add _

theorem failsOnContents_getRequest (name : String) : FailsOnContents (getRequest name) :=
  .bind (failsOnContents_namedRequest _ _ name) fun d => d.failsOnContents_add _

theorem failsOnContents_mtuRequest (name : String) (mtu : UInt32) :
    FailsOnContents (mtuRequest name mtu) :=
  .bind (failsOnContents_namedRequest _ _ name) fun d => d.failsOnContents_add _

end Link
end Netlink
