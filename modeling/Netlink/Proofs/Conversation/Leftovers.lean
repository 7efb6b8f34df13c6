import Netlink.Link.Requests
import Netlink.Proofs.Conversation.Decision
import Netlink.Proofs.Conversation.DumpPass

/-! # What a dump leaves unread

A dump that ends well has walked every datagram before the last to its end, and nothing was wrong
with those that had theirs. In the last it has come to the message that ends the dump and no
further: whatever stands behind that message, be it no message at all, is not looked at. -/

namespace Netlink

/-! ## Behind a message -/

namespace Frame

theorem complaint?_walkFrom (offset offset' : Nat) (bs : Bytes) :
    (walkFrom offset bs).complaint? = (walkFrom offset' bs).complaint? := by
  fun_induction walkFrom offset bs generalizing offset' with
  | case1 offset bs hshort => rw [walkFrom_of_short hshort]
  | case2 offset bs declared hmalformed => rw [walkFrom_of_malformed hmalformed]
  | case3 offset bs header bytes rest hfront tail ih =>
    rw [walkFrom_of_message hfront]
    exact ih _

/-- What is wrong with a datagram is wrong with what stands behind any of its messages. -/
theorem complaint?_behind {offset : Nat} {bs : Bytes} {f : Frame}
    (h : f ∈ (walkFrom offset bs).frames) :
    offset ≤ f.offset ∧
      (walkFrom offset bs).complaint? = (walk (bs.drop (f.next - offset))).complaint? := by
  -- the offset varies with the walk, so its bound is carried along
  fun_induction walkFrom offset bs with
  | case1 => cases h
  | case2 => cases h
  | case3 offset bs header bytes rest hfront tail ih =>
    have hrest := Front.rest_of_message hfront
    rcases List.mem_cons.mp h with rfl | hlater
    · refine ⟨Nat.le_refl _, ?_⟩
      have hgap : next ⟨offset, header, bytes⟩ - offset = Wire.align4 bytes.length := by
        simp [next]
      rw [hgap, ← hrest]
      exact complaint?_walkFrom _ 0 rest
    · obtain ⟨hle, hcomplaint⟩ := ih hlater
      refine ⟨by omega, ?_⟩
      have hgap : f.next - offset =
          Wire.align4 bytes.length + (f.next - (offset + Wire.align4 bytes.length)) := by
        simp only [next]
        omega
      rw [hgap, ← List.drop_drop, ← hrest]
      exact hcomplaint

end Frame

namespace Dump

variable {β : Type} {ks : List (Consumer β)} {d : Datagram} {c c' : Conversation}
  {memory memory' : β}

/-- What stands in a datagram behind the first message that ends the dump. -/
def behind? (port number : UInt32) (d : Datagram) : Option Bytes :=
  ((Frame.walk d.data).frames.find? fun f =>
    related port number (f.message d.sender) && ends (f.message d.sender)).map fun f =>
      d.data.drop f.next

/-- A datagram that shows a message that ends the dump is as clean as what stands behind it. -/
theorem clean_behind {port number : UInt32} {m : Message}
    (h : ending? port number d.messages = some m) :
    ∃ behind, behind? port number d = some behind ∧
      (Frame.walk d.data).complaint? = (Frame.walk behind).complaint? := by
  rw [ending?, Datagram.messages, List.find?_filter, List.find?_map] at h
  simp only [Bool.decide_and, Bool.decide_eq_true] at h
  obtain ⟨f, hfirst, -⟩ := Option.map_eq_some_iff.mp h
  refine ⟨d.data.drop f.next, ?_, ?_⟩
  · rw [behind?]
    exact congrArg (Option.map _) hfirst
  · exact (Frame.complaint?_behind (List.mem_of_find?_eq_some hfirst)).2

/-! ## Datagrams before the last -/

/-- A walk that has looked at all messages of a whole datagram has met no fault. -/
theorem error?_of_deliverAll {p q : Progress β} (hsome : ks ≠ []) (hwhole : d.truncated = false)
    (hnone : ending? p.state.port p.state.dumpSeq d.messages = none)
    (h : (deliverAll d (Frame.walk d.data) ks p).progress? = some q) :
    (Frame.walk d.data).error? = none := by
  cases ks with
  | nil => exact absurd rfl hsome
  | cons k ks =>
    rw [deliverAll, hwhole] at h
    cases hwalk : deliver k d.sender (Frame.walk d.data).frames p with
    | «over» c memory result =>
      rw [hwalk] at h
      cases h
    | atDone p₁ =>
      -- the walk would have come to a message that ends the dump
      have hwell : (deliver k d.sender (Frame.walk d.data).frames p).well := by rw [hwalk]; trivial
      have hend := (deliver_well hwell).2
      rw [Datagram.messages] at hnone
      rw [hwalk, hnone] at hend
      exact hend.elim
    | through p₁ =>
      rw [hwalk] at h
      cases herror : (Frame.walk d.data).error? with
      | none => rfl
      | some e =>
        rw [herror] at h
        cases h

/-- Nothing is wrong with a whole datagram after which the dump goes on. -/
theorem clean_of_step_more (hsome : ks ≠ []) (h : step ks d c memory = .more c' memory')
    (hwhole : d.truncated = false) : (Frame.walk d.data).complaint? = none := by
  obtain ⟨hnone, c₀, -, hrecord, -⟩ := step_more hsome h
  obtain ⟨-, hport, hnumber⟩ := Conversation.eq_of_record hrecord
  obtain ⟨c₁, memory₁, result, -, hstep⟩ | ⟨p, hwalks, hstep⟩ := step_cases hrecord ks memory
  · rw [hstep] at h
    cases h
  · rw [hstep] at h
    rw [← hport, ← hnumber] at hnone
    have hnofault := error?_of_deliverAll hsome hwhole hnone hwalks
    have hks : ks.isEmpty = false := List.isEmpty_eq_false_iff.mpr hsome
    obtain ⟨hnodone, -⟩ := conclude_more h
    rw [conclude, hnodone, hwhole, hks] at h
    rw [Frame.Walk.complaint?_of_none (Option.map_eq_none_iff.mp hnofault)]
    by_cases hempty : (Frame.walk d.data).rest.isEmpty = true
    · rw [if_pos hempty]
    · simp [hempty] at h

theorem clean_of_takes {ds : List Datagram} (hsome : ks ≠ [])
    (h : (reader ks).Takes ds c memory c' memory') :
    ∀ d ∈ ds, d.truncated = false → (Frame.walk d.data).complaint? = none := by
  induction h with
  | nil => simp
  | @cons d ds c c₁ c' memory memory₁ memory' hstep later ih =>
    intro d' hd' hwhole
    rcases List.mem_cons.mp hd' with rfl | hlater
    · exact clean_of_step_more hsome hstep hwhole
    · exact ih d' hlater hwhole

end Dump

/-! ## Dumps that end well -/

namespace Connection

variable {σ : Type} [Transport σ]

/-- An outstanding dump is read over the first connection, ends well and leaves the second: by some
consumers, or by someone who has asked for it before and gathers messages or interfaces. -/
inductive Drained : Connection σ → Connection σ → Prop
  | readDump {β : Type} {ks : List (Consumer β)} {memory memory' : β} {c after : Connection σ}
      (some : ks ≠ []) (ok : readDump ks memory c = ((.ok (), memory'), after)) : Drained c after
  | dump {d : Draft} {ms : List Bytes} {c after : Connection σ} (ok : dump d c = (.ok ms, after)) :
      Drained (requestDumpBy d c).2 after
  | links {ls : List Link} {c after : Connection σ} (ok : links c = (.ok ls, after)) :
      Drained (requestAllLinks 0 MessageType.getLink c).2 after

theorem readDump_of_gather {β : Type} {x : Action σ Unit} {k : Consumer β} {memory memory' : β}
    {c after : Connection σ} (h : (x >>= fun _ => gather k memory) c = (.ok memory', after)) :
    Connection.readDump [k] memory (x c).2 = ((.ok (), memory'), after) := by
  rw [Action.bind_eq] at h
  rcases hasked : x c with ⟨_ | _, asked⟩
  · rw [hasked] at h
    cases h
  · rw [hasked] at h
    change gather k memory asked = (.ok memory', after) at h
    change Connection.readDump [k] memory asked = _
    unfold gather at h
    rcases hread : Connection.readDump [k] memory asked with ⟨⟨_ | _, memory₁⟩, after₁⟩
    · rw [hread] at h
      cases h
    · rw [hread] at h
      cases h
      rfl

theorem drained_of_ok {β : Type} {ks : List (Consumer β)} {memory : β} {c : Connection σ}
    (hsome : ks ≠ []) (hok : (Connection.readDump ks memory c).1.1 = .ok ()) :
    Drained c (Connection.readDump ks memory c).2 :=
  .readDump hsome (Prod.ext (Prod.ext hok rfl) rfl)

theorem Drained.exists_readDump {c after : Connection σ} (h : Drained c after) :
    ∃ (β : Type) (ks : List (Consumer β)) (memory memory' : β), ks ≠ [] ∧
      Connection.readDump ks memory c = ((.ok (), memory'), after) := by
  cases h with
  | readDump hsome hok => exact ⟨_, _, _, _, hsome, hok⟩
  | dump hok => exact ⟨_, _, _, _, List.cons_ne_nil _ _, readDump_of_gather hok⟩
  | links hok => exact ⟨_, _, _, _, List.cons_ne_nil _ _, readDump_of_gather hok⟩

/-- **Only behind its end may a dump leave something unread.** A dump that ends well has received
datagrams that show no message that ends it and then one that does. Nothing is wrong with any whole
datagram before the last; and nothing is wrong with any whole datagram at all exactly if the last
has lost its end, or if what stands behind the message that ends the dump forms further messages. -/
theorem clean_iff_clean_behind {c after : Connection σ} (h : Drained c after) :
    let arrivals (c' : Connection σ) := (Transport.arrivals c.state.config.timeout c'.endpoint).1
    let clean (bs : Bytes) := (Frame.walk bs).complaint? = none
    ∃ before last behind, arrivals c = before ++ last :: arrivals after ∧
      Dump.ending? c.state.port c.state.dumpSeq (before.flatMap Datagram.messages) = none ∧
      Dump.behind? c.state.port c.state.dumpSeq last = some behind ∧
      (∀ d ∈ before, d.truncated = false → clean d.data) ∧
      ((∀ d ∈ before ++ [last], d.truncated = false → clean d.data) ↔
        last.truncated = true ∨ clean behind) := by
  intro arrivals clean
  obtain ⟨β, ks, memory, memory', hsome, hread⟩ := h.exists_readDump
  have hok : (Connection.readDump ks memory c).1.1 = .ok () := by rw [hread]
  obtain ⟨before, last, c₁, memory₁, harrivals, htakes, hlast, hsettled, hnone⟩ :=
    Dump.readDump_ok hsome hok
  rw [hread] at harrivals
  obtain ⟨m, c₀, hending, -⟩ := Dump.step_ok hsome hlast
  obtain ⟨-, hport, -, -, hnumber, -⟩ := Conversation.eq_of_settled hsettled
  change Dump.ending? c₁.port c₁.dumpSeq last.messages = some m at hending
  rw [hport, hnumber] at hending
  obtain ⟨behind, hbehind, hsame⟩ := Dump.clean_behind hending
  have hbefore := Dump.clean_of_takes hsome htakes
  refine ⟨before, last, behind, harrivals, hnone, hbehind, hbefore, ?_⟩
  constructor
  · intro hall
    by_cases hwhole : last.truncated = false
    · right
      show (Frame.walk behind).complaint? = none
      rw [← hsame]
      exact hall last (by simp) hwhole
    · left
      simpa using hwhole
  · intro hcases d hd hwhole
    rcases List.mem_append.mp hd with hearlier | hlast
    · exact hbefore d hearlier hwhole
    · obtain rfl := List.mem_singleton.mp hlast
      rcases hcases with hcut | hclean
      · rw [hwhole] at hcut
        cases hcut
      · exact hsame.trans hclean

open Dump (sampleObject sampleDone sampleTaker sampleArrivals arrivals_sample)

/-- Behind DONE stands another message. -/
theorem clean_iff_clean_behind_sample :
    let object : Datagram := { data := Packet.records [sampleObject 7 [1, 2, 3] (by decide)] }
    let last : Datagram :=
      { data := Packet.records [sampleDone 7, sampleObject 7 [4, 5] (by decide)] }
    let c := sampleArrivals [object, last] none
    Drained c (Connection.readDump [sampleTaker 0] () c).2 ∧
      ∀ d ∈ [object, last], d.truncated = false → (Frame.walk d.data).complaint? = none := by
  intro object last c
  let after := (Connection.readDump [sampleTaker 0] () c).2
  have hok : (Connection.readDump [sampleTaker 0] () (sampleArrivals
      [{ data := Packet.records [sampleObject 7 [1, 2, 3] (by decide)] },
        { data := Packet.records [sampleDone 7, sampleObject 7 [4, 5] (by decide)] }] none)).1.1 =
      .ok () :=
    eq_ok_of_isOk (by decide +kernel)
  have hdrained : Drained c after := drained_of_ok (List.cons_ne_nil _ _) hok
  refine ⟨hdrained, ?_⟩
  obtain ⟨before, last', behind, harrivals, -, hbehind, -, hclean⟩ :=
    clean_iff_clean_behind hdrained
  have hnothing : (Transport.arrivals none after.endpoint).1 = [] := by decide +kernel
  change (Transport.arrivals none c.endpoint).1 =
    before ++ last' :: (Transport.arrivals none after.endpoint).1 at harrivals
  rw [hnothing, arrivals_sample] at harrivals
  have hall : before ++ [last'] = [object] ++ [last] := harrivals.symm
  obtain ⟨-, hlast⟩ := List.append_inj' hall rfl
  cases hlast
  rw [hall] at hclean
  refine hclean.mpr (.inr ?_)
  have hobject : Dump.behind? 42 7 last =
      some (Packet.records [sampleObject 7 [4, 5] (by decide)]) := by decide +kernel
  cases hbehind.symm.trans hobject
  decide +kernel

/-- Three bytes behind DONE are no message, and the dump ends well. -/
theorem leftover_behind_done :
    let last : Datagram := { data := (sampleDone 7).record ++ [1, 2, 3] }
    let c := sampleArrivals [last] none
    Drained c (Connection.readDump [sampleTaker 0] () c).2 ∧
      (Transport.arrivals c.state.config.timeout c.endpoint).1 = [last] ∧
      last.truncated = false ∧
      (Frame.walk last.data).complaint? = some (.framing (.remnant 3)) := by
  have hok : (Connection.readDump [sampleTaker 0] ()
      (sampleArrivals [{ data := (sampleDone 7).record ++ [1, 2, 3] }] none)).1.1 = .ok () :=
    eq_ok_of_isOk (by decide +kernel)
  intro last c
  refine ⟨drained_of_ok (List.cons_ne_nil _ _) hok, ?_, rfl, by decide +kernel⟩
  exact congrArg Prod.fst (arrivals_sample [last] none)

end Connection
end Netlink
