import Netlink.Generic.Resolve
import Netlink.Proofs.Link.Reading

/-! # Reading families

A message that describes no family makes a reading fail for what it is made of, and no more than
that. -/

namespace Netlink.Family

open Decoded (failsOnContents_bind)

theorem failsOnContents_readGroups (groups : List (String × UInt32)) (nests : List Attribute) :
    FailsOnContents (readGroups groups nests).result := by
  induction nests generalizing groups with
  | nil => exact .ok groups
  | cons nest nests ih =>
    refine failsOnContents_bind (.ok _) fun table => ?_
    split
    · rename_i name id _ _
      exact failsOnContents_bind name.failsOnContents_text fun text =>
        failsOnContents_bind (id.failsOnContents_number _ _ _) fun number => ih _
    · exact ih groups

theorem failsOnContents_field {α : Type} (t : Attribute.Table) (type : UInt16) (default : α)
    {read : Attribute → Except Error α} (h : ∀ a, FailsOnContents (read a)) :
    FailsOnContents (field t type default read).result := by
  unfold field
  split
  · exact .ok default
  · exact h _

theorem failsOnContents_genericHeader (bs : Bytes) : FailsOnContents (GenericHeader.decode bs) :=
  .ofFront GenericHeader.ofBytes

theorem failsOnContents_read (payload : Bytes) : FailsOnContents (read payload).result := by
  have hnumber (t : Attribute.Table) (type : UInt16) :
      FailsOnContents (field t type 0 Attribute.u32).result :=
    failsOnContents_field t type 0 fun a => a.failsOnContents_number _ _ _
  refine failsOnContents_bind (failsOnContents_genericHeader payload) fun header => ?_
  refine failsOnContents_bind (.ok _) fun table => ?_
  extract_lets named
  have hnamed : ∀ id, FailsOnContents (named id).result := by
    intro id
    refine failsOnContents_bind
      (failsOnContents_field table nameType "" Attribute.failsOnContents_text) fun name => ?_
    refine failsOnContents_bind (hnumber table versionType) fun version => ?_
    refine failsOnContents_bind (hnumber table headerSizeType) fun size => ?_
    refine failsOnContents_bind (hnumber table maxAttributeType) fun highest => ?_
    extract_lets grouped
    split
    · exact .ok _
    · exact failsOnContents_bind (failsOnContents_readGroups [] _) fun groups => .ok _
  split
  · exact failsOnContents_bind (.error rfl) hnamed
  · rename_i a _
    exact failsOnContents_bind (a.failsOnContents_number _ _ _) hnamed

theorem failsOnContents_readMessage (bytes : Bytes) :
    FailsOnContents (readMessage bytes).result := by
  refine failsOnContents_bind (Header.failsOnContents_decode bytes) fun header => ?_
  dsimp only
  split
  · exact failsOnContents_bind (.error rfl) fun _ => failsOnContents_read _
  · exact failsOnContents_read _

theorem failsOnContents_getRequest (name : String) : FailsOnContents (getRequest name) := by
  let header : GenericHeader := { command := getCommand, version := 1 }
  have hheader := (Draft.new MessageType.controller MessageFlag.request).failsOnContents_addRaw
    header.encode
  exact hheader.bind fun d => d.failsOnContents_add (Attribute.ofText nameType name)

end Netlink.Family
