import Netlink.Proofs.Conversation.Delivery
import Netlink.Proofs.Conversation.Refusals
import Netlink.Proofs.Recording.Extent

/-! # What is called truncated is short

Whatever is read, asked for, dumped or replayed, a failure that calls something truncated expects
more bytes than there are; a header that is there as a whole and declares a length that cannot be is
never called truncated, but ill-formed. Someone who listens breaks this rule in one place: a header
that declares less than itself, in a datagram that lost its end, is called a truncated message. -/

namespace Netlink

/-- What it calls truncated, where it fails, is shorter than it should be. -/
abbrev FailsShort {α : Type} (x : Except Error α) : Prop := ∀ e, x = .error e → e.Short

theorem FailsOnContents.short {α : Type} {x : Except Error α} (h : FailsOnContents x) :
    FailsShort x :=
  fun e he => Error.short_of_ofContents (h e he)

/-! ## Reading -/

theorem Attribute.Table.failsOnContents_readCompat (max : UInt16) (a : Attribute) (size : Nat) :
    FailsOnContents (readCompat max a size).result := by
  unfold readCompat
  cases hsplit : Wire.split? size a.payload with
  | none => exact .error (decide_eq_true (Wire.split?_eq_none_iff.mp hsplit))
  | some split =>
    dsimp only
    cases next? (a.payload.drop (Wire.align4 size)) with
    | none => exact .ok _
    | some found => exact Decoded.failsOnContents_bind (.ok _) fun _ => .ok _

namespace Recording

theorem short_fault {rest : Bytes} (hnone : next? rest = none) (offset : Nat) :
    (fault offset rest).Short := by
  rw [fault_eq]
  split
  · trivial
  · rename_i hfair
    exact (next?_eq_none_iff_fault.mp hnone).resolve_left hfair

variable {β : Type} {accept : Message → β → Handled β}

theorem short_replayFrom (haccept : ∀ m memory, FailsShort (accept m memory).value.1)
    (offset count : Nat) (bs : Bytes) (memory : β) :
    FailsShort (replayFrom accept offset count bs memory).1.value.1 := by
  fun_induction replayFrom accept offset count bs memory with
  | case1 => exact fun e he => by cases he
  | case2 offset count bs memory hsome hnone =>
    intro e he
    cases he
    exact short_fault hnone offset
  | case3 offset count bs memory hsome message rest hnext memory' log e haccepted =>
    rintro e' ⟨⟩
    exact haccept _ memory e (congrArg (·.value.1) haccepted)
  | case4 offset count bs memory hsome message rest hnext memory' log value more total hlater
      haccepted ih =>
    rw [hlater] at ih
    exact ih

theorem short_replay (haccept : ∀ m memory, FailsShort (accept m memory).value.1) (bs : Bytes)
    (memory : β) : FailsShort (replay accept bs memory).value.1 := by
  have hwalked := short_replayFrom haccept 0 0 bs memory
  unfold replay
  generalize replayFrom accept 0 0 bs memory = walked at hwalked ⊢
  obtain ⟨⟨⟨e | _, memory'⟩, log⟩, count⟩ := walked
  · rintro e' ⟨⟩
    exact hwalked e rfl
  · exact fun e he => by cases he

end Recording

/-! ## Asking -/

namespace Error

theorem short_of_ofEndpoint {e : Error} (h : e.ofEndpoint = true) : e.Short := by
  cases e with
  | truncated => cases h
  | _ => trivial

theorem OfRequest.short {e : Error} (h : e.OfRequest) : e.Short := by
  cases h with
  | endpoint h => exact short_of_ofEndpoint h
  | contents h => exact short_of_ofContents h
  | framing fault => trivial
  | refused failed detail => trivial

theorem OfLookup.short {e : Error} (h : e.OfLookup) : e.Short := by
  cases h with
  | request h => exact h.short
  | noInterface name => trivial
  | noFamily name => trivial

end Error

/-! ## Dumping -/

namespace Dump

theorem short_errorResult (protocol : Protocol) (m : Message) :
    FailsShort (errorResult protocol m) := by
  intro e he
  unfold errorResult at he
  split at he
  · rename_i hshort
    cases he
    exact hshort
  · split at he <;> cases he
    trivial

theorem short_doneResult (m : Message) : FailsShort (doneResult m) := by
  intro e he
  unfold doneResult at he
  split at he
  · rename_i hshort
    cases he
    exact hshort
  · split at he <;> cases he
    trivial

theorem Closes.short {β : Type} {ks : List (Consumer β)} {c c' : Conversation} {ms : List Message}
    {result : Except Error Unit} (h : Closes ks c ms c' result)
    (haccept : ∀ k ∈ ks, ∀ m memory, FailsShort (k.accept m memory).value.1) :
    FailsShort result := by
  cases h with
  | faulty _ fault =>
    rintro e ⟨⟩
    obtain rfl | ⟨_, rfl⟩ := fault <;> trivial
  | @declined k m memory _ e member _ declines =>
    rintro e' ⟨⟩
    exact haccept k member m memory e declines
  | @error k m c₁ =>
    have hresult := onError_result c₁ (m.clearing k.clears)
    exact fun e he => short_errorResult _ _ e (hresult.symm.trans he)
  | @done m c₁ =>
    have hresult := onDone_result c₁ m
    exact fun e he => short_doneResult _ e (hresult.symm.trans he)

end Dump

theorem Connection.readDump_short {σ β : Type} [Transport σ] [Transport.Plain σ]
    {ks : List (Consumer β)} (haccept : ∀ k ∈ ks, ∀ m memory, FailsShort (k.accept m memory).value.1)
    (memory : β) (c : Connection σ) : FailsShort (readDump ks memory c).1.1 := by
  obtain ⟨e, hfailed, hfails, -⟩ | hclosed := readDump_closes ks memory c
  · intro e' he
    cases hfailed.symm.trans he
    exact Error.short_of_ofEndpoint (Transport.Plain.of_fails hfails)
  · exact hclosed.short haccept

/-! ## Listening -/

namespace Listener

variable {β : Type} {l : Listener β} {d : Datagram} {ds : List Datagram} {memory : β} {e : Error}

/-- A datagram lost its end, and the header at which its walk stops is there as a whole but declares
less than a header. -/
structure Undersized (d : Datagram) (declared : Nat) : Prop where
  cut : d.truncated = true
  fault : (Frame.walk d.data).fault = some declared
  small : declared < headerSize

/-- A listener is handed everything up to this one of some datagrams and refuses nothing of it, and
nothing is wrong with those before it. -/
def Reaches (l : Listener β) (ds : List Datagram) (memory : β) (d : Datagram) : Prop :=
  ∃ before later, ds = before ++ d :: later ∧
    (∀ d' ∈ before, complaint? d' (Frame.walk d'.data) = none) ∧
    (l.hand ((before ++ [d]).flatMap Datagram.notices) memory).1 = .ok ()

theorem complaint?_of_undersized {declared : Nat} (h : Undersized d declared) :
    complaint? d (Frame.walk d.data) =
      some (.truncated declared (Frame.walk d.data).rest.length) := by
  rw [complaint?, if_pos h.cut, h.fault]
  rfl

/-- What is complained about as truncated is short, unless it declares less than a header. -/
theorem short_complaint? (h : complaint? d (Frame.walk d.data) = some e) (hlong : ¬ e.Short) :
    ∃ declared, Undersized d declared := by
  unfold complaint? at h
  split at h
  · rename_i hcut
    obtain ⟨declared, hfault, rfl⟩ := Option.map_eq_some_iff.mp h
    refine ⟨declared, hcut, hfault, ?_⟩
    exact (Frame.declared_of_fault hfault).2.resolve_right hlong
  · obtain ⟨fault, rfl⟩ := Frame.Walk.framing_of_complaint h
    exact absurd trivial hlong

theorem refused_of_hand {ns : List (Int32 × Message)} (h : (l.hand ns memory).1 = .error e) :
    ∃ n m memory, (l n m memory).value.1 = .error e := by
  induction ns generalizing memory with
  | nil => cases h
  | cons n ns ih =>
    rw [hand] at h
    rcases hfirst : (l n.1 n.2 memory).value with ⟨e' | _, memory'⟩
    · rw [hfirst] at h
      exact ⟨n.1, n.2, memory, (congrArg Prod.fst hfirst).trans h⟩
    · rw [hfirst] at h
      exact ih h

theorem Reaches.cons {memory' : β} (hhand : l.hand d.notices memory = (.ok (), memory'))
    (hnone : complaint? d (Frame.walk d.data) = none) {last : Datagram}
    (h : Reaches l ds memory' last) : Reaches l (d :: ds) memory last := by
  obtain ⟨before, later, rfl, hbefore, hheard⟩ := h
  refine ⟨d :: before, later, rfl, List.forall_mem_cons.mpr ⟨hnone, hbefore⟩, ?_⟩
  rw [List.cons_append, List.flatMap_cons, hand_append, hhand]
  exact hheard

/-- Listening ends with a refusal, with what is wrong with a datagram that it reaches, or with the
failure behind all datagrams. -/
theorem outcome_cases {failure : Error}
    (h : (l.outcome (upTo ds failure).2 ((upTo ds failure).1.flatMap Datagram.notices) memory).1 =
      .error e) :
    (∃ n m memory, (l n m memory).value.1 = .error e) ∨
      (∃ d, Reaches l ds memory d ∧ complaint? d (Frame.walk d.data) = some e) ∨ e = failure := by
  induction ds generalizing memory with
  | nil =>
    cases h
    exact .inr (.inr rfl)
  | cons d ds ih =>
    rw [outcome_upTo_cons] at h
    rcases hhand : l.hand d.notices memory with ⟨e' | _, memory'⟩
    · rw [hhand] at h
      exact .inl (refused_of_hand ((congrArg Prod.fst hhand).trans h))
    · rw [hhand] at h
      cases hcomplaint : complaint? d (Frame.walk d.data) with
      | some e' =>
        rw [hcomplaint] at h
        cases h
        refine .inr (.inl ⟨d, ⟨[], ds, rfl, List.forall_mem_nil _, ?_⟩, hcomplaint⟩)
        rw [List.nil_append, List.flatMap_singleton, hhand]
      | none =>
        rw [hcomplaint] at h
        obtain hrefused | ⟨last, hreaches, hlast⟩ | hfailure := ih h
        · exact .inl hrefused
        · exact .inr (.inl ⟨last, hreaches.cons hhand hcomplaint, hlast⟩)
        · exact .inr (.inr hfailure)

/-- What is wrong with a datagram that listening reaches is what it ends with. -/
theorem Reaches.outcome (h : Reaches l ds memory d)
    (hcomplaint : complaint? d (Frame.walk d.data) = some e) (failure : Error) :
    (l.outcome (upTo ds failure).2 ((upTo ds failure).1.flatMap Datagram.notices) memory).1 =
      .error e := by
  obtain ⟨before, later, rfl, hbefore, hheard⟩ := h
  have hsplit : upTo (before ++ d :: later) failure = (before ++ [d], e) := by
    clear hheard
    induction before with
    | nil => rw [List.nil_append, upTo, hcomplaint]; rfl
    | cons d' before ih =>
      obtain ⟨hfirst, hrest⟩ := List.forall_mem_cons.mp hbefore
      rw [List.cons_append, upTo, hfirst, ih hrest]
      rfl
  rw [hsplit, Listener.outcome]
  rcases hhand : l.hand ((before ++ [d]).flatMap Datagram.notices) memory with ⟨e' | _, memory'⟩
  · rw [hhand] at hheard
    cases hheard
  · rfl

theorem fails_receipts {σ : Type} [Transport σ] (patience : Option Nat) (s : σ) :
    Transport.Fails σ (Transport.receipts patience s).2 := by
  fun_induction Transport.receipts patience s with
  | case1 _ _ _ _ _ ih => exact ih
  | case2 _ _ _ _ _ _ ih => exact ih
  | case3 s fault s' hreceive => exact .inr (.inl ⟨patience, s, s', hreceive⟩)
  | case4 s e s' _ hreceive => exact .inr (.inl ⟨patience, s, s', hreceive⟩)

end Listener

namespace Connection

open Netlink.Action (FailsWith)
open Error (Short)
open Listener (Reaches Undersized)

variable {σ : Type} [Transport σ]

/-- Listening ends with something called truncated that is not short exactly where it comes to a
header that declares less than itself, in a datagram that lost its end. -/
theorem listen_undersized [Transport.Plain σ] {β : Type} {l : Listener β}
    (haccept : ∀ n m memory, FailsShort (l n m memory).value.1) (memory : β) (c : Connection σ) :
    let result := (listen l memory c).1.1
    let datagrams := (Transport.receipts c.state.config.timeout c.endpoint).1.filterMap
      Receipt.datagram?
    ((∃ e, result = .error e ∧ ¬ e.Short) ↔
      ∃ d declared, Reaches l datagrams memory d ∧ Undersized d declared) ∧
    ∀ d declared, Reaches l datagrams memory d → Undersized d declared →
      result = .error (.truncated declared (Frame.walk d.data).rest.length) ∧
        headerSize ≤ (Frame.walk d.data).rest.length := by
  intro result datagrams
  have hresult : result = _ := congrArg Prod.fst (Listener.listen_eq l c memory)
  have hlong {d : Datagram} {declared : Nat} (hreaches : Reaches l datagrams memory d)
      (hsmall : Undersized d declared) :
      result = .error (.truncated declared (Frame.walk d.data).rest.length) ∧
        headerSize ≤ (Frame.walk d.data).rest.length := by
    have hcomplaint := Listener.complaint?_of_undersized hsmall
    exact ⟨hresult.trans (hreaches.outcome hcomplaint _), (Frame.declared_of_fault hsmall.fault).1⟩
  refine ⟨⟨?_, ?_⟩, fun d declared => hlong⟩
  · rintro ⟨e, he, hnot⟩
    obtain ⟨n, m, memory', hrefused⟩ | ⟨d, hreaches, hcomplaint⟩ | rfl :=
      Listener.outcome_cases (hresult.symm.trans he)
    · exact absurd (haccept n m memory' e hrefused) hnot
    · obtain ⟨declared, hsmall⟩ := Listener.short_complaint? hcomplaint hnot
      exact ⟨d, declared, hreaches, hsmall⟩
    · have hfails := Transport.Plain.of_fails
        (Listener.fails_receipts c.state.config.timeout c.endpoint)
      exact absurd (Error.short_of_ofEndpoint hfails) hnot
  · rintro ⟨d, declared, hreaches, hsmall⟩
    obtain ⟨he, hheader⟩ := hlong hreaches hsmall
    refine ⟨_, he, fun hshort => ?_⟩
    have hless : (Frame.walk d.data).rest.length < declared := hshort
    have hsize := hsmall.small
    omega

/-- **What is called truncated is short, but for one place.** Every reading of headers, fixed parts,
interfaces and families, and of a fixed part with a nest behind it, calls something truncated only
if it is shorter than expected; so does every replay of a recording, every request, and every dump,
as long as nobody who is handed messages refuses one otherwise. Someone who listens does so too,
unless what is heard and not refused ends with a datagram that lost its end, and the header at which
its walk stops, there as a whole, declares less than a header: then the failure calls the message
truncated to more bytes than it declares. -/
theorem truncated_is_short [Transport.Plain σ] :
    (∀ bs, FailsShort (Header.decode bs) ∧ FailsShort (AttributeHeader.decode bs) ∧
      FailsShort (ErrorReply.decode bs) ∧ FailsShort (InterfaceInfo.decode bs) ∧
      FailsShort (GenericHeader.decode bs) ∧ FailsShort (Link.read bs).result ∧
      FailsShort (Link.readMessage bs).result ∧ FailsShort (Family.read bs).result ∧
      FailsShort (Family.readMessage bs).result) ∧
    (∀ max a size, FailsShort (Attribute.Table.readCompat max a size).result) ∧
    (∀ {β : Type} (accept : Message → β → Handled β) bs memory,
      (∀ m memory, FailsShort (accept m memory).value.1) →
      FailsShort (Recording.replay accept bs memory).value.1) ∧
    (∀ requests, FailsWith Short (requestAll requests : Action σ Unit)) ∧
    (∀ d handler, FailsWith Short (requestReporting d handler : Action σ Unit)) ∧
    (∀ d, FailsWith Short (requestQuietly d : Action σ Unit)) ∧
    (∀ d, FailsWith Short (ask d : Action σ Bytes)) ∧
    (∀ message, FailsWith Short (postChecked message : Action σ Unit)) ∧
    (∀ name, FailsWith Short (linkNamed name : Action σ Link) ∧
      FailsWith Short (family name : Action σ Family)) ∧
    (∀ {β : Type} (ks : List (Consumer β)) memory (c : Connection σ),
      (∀ k ∈ ks, ∀ m memory, FailsShort (k.accept m memory).value.1) →
      FailsShort (readDump ks memory c).1.1) ∧
    ∀ {β : Type} (l : Listener β) memory (c : Connection σ),
      (∀ n m memory, FailsShort (l n m memory).value.1) →
      let result := (listen l memory c).1.1
      let datagrams := (Transport.receipts c.state.config.timeout c.endpoint).1.filterMap
        Receipt.datagram?
      ((∃ e, result = .error e ∧ ¬ e.Short) ↔
        ∃ d declared, Reaches l datagrams memory d ∧ Undersized d declared) ∧
      ∀ d declared, Reaches l datagrams memory d → Undersized d declared →
        result = .error (.truncated declared (Frame.walk d.data).rest.length) ∧
          headerSize ≤ (Frame.walk d.data).rest.length := by
  have hrequest {α : Type} {x : Action σ α} (h : FailsWith Error.OfRequest x) :
      FailsWith Short x := h.mono fun _ => Error.OfRequest.short
  have hlookup {α : Type} {x : Action σ α} (h : FailsWith Error.OfLookup x) :
      FailsWith Short x := h.mono fun _ => Error.OfLookup.short
  refine ⟨fun bs => ⟨(Header.failsOnContents_decode bs).short,
      (AttributeHeader.failsOnContents_decode bs).short,
      (ErrorReply.failsOnContents_decode bs).short, (Link.failsOnContents_info bs).short,
      (Family.failsOnContents_genericHeader bs).short, (Link.failsOnContents_read bs).short,
      (Link.failsOnContents_readMessage bs).short, (Family.failsOnContents_read bs).short,
      (Family.failsOnContents_readMessage bs).short⟩,
    fun max a size => (Attribute.Table.failsOnContents_readCompat max a size).short, ?_,
    fun requests => hrequest (requestAll_fails requests),
    fun d handler => hrequest (requestReporting_fails d handler),
    fun d => hrequest (requestQuietly_fails d), fun d => hrequest (ask_fails d),
    fun message => hrequest (postChecked_fails message),
    fun name => ⟨hlookup (linkNamed_fails name), hlookup (family_fails name)⟩, ?_, ?_⟩
  · intro β accept bs memory haccept
    exact Recording.short_replay haccept bs memory
  · intro β ks memory c haccept
    exact readDump_short haccept memory c
  · intro β l memory c haccept
    exact listen_undersized haccept memory c

open Dump (sampleObject)
open Listener (sampleHeard sampleListener receipts_sample)

/-- A recording that lacks three bytes of its message, and a datagram that lost two of them. -/
theorem truncated_is_short_sample :
    let object := sampleObject 7 [41, 42, 43, 44] (by decide)
    let cut : Datagram := { data := object.record.take 18, truncated := true }
    (Recording.replay Recording.keep (object.record.take 17) []).value.1 =
        .error (.truncated 20 17) ∧
      Short (.truncated 20 17) ∧
      (listen sampleListener [] (sampleHeard [.datagram cut])).1.1 = .error (.truncated 20 18) ∧
      ¬ ∃ d declared, Reaches sampleListener [cut] [] d ∧ Undersized d declared := by
  intro object cut
  have htorn : (Recording.replay Recording.keep (object.record.take 17) []).value.1 =
      .error (.truncated 20 17) := by cbv
  have hheard : (listen sampleListener [] (sampleHeard [.datagram cut])).1.1 =
      .error (.truncated 20 18) := eq_error_of_failure? (by decide +kernel)
  obtain ⟨-, -, hreplay, -, -, -, -, -, -, -, hlisten⟩ := @truncated_is_short Script _ _
  have hkeeps : ∀ m memory, FailsShort (Recording.keep m memory).value.1 :=
    fun m memory e he => by cases he
  have htakes : ∀ n m memory, FailsShort (sampleListener n m memory).value.1 :=
    fun n m memory e he => by cases he
  refine ⟨htorn, hreplay Recording.keep _ [] hkeeps _ htorn, hheard, fun hundersized => ?_⟩
  obtain ⟨hlong, -⟩ := hlisten sampleListener [] (sampleHeard [.datagram cut]) htakes
  have hreceived : (Transport.receipts none (sampleHeard [.datagram cut]).endpoint).1.filterMap
      Receipt.datagram? = [cut] :=
    congrArg (fun received : List Receipt × Error => received.1.filterMap Receipt.datagram?)
      (receipts_sample [.datagram cut])
  change _ ↔ ∃ d declared, Reaches sampleListener ((Transport.receipts none
    (sampleHeard [.datagram cut]).endpoint).1.filterMap Receipt.datagram?) [] d ∧ _ at hlong
  rw [hreceived] at hlong
  obtain ⟨e, he, hnot⟩ := hlong.mpr hundersized
  cases he.symm.trans hheard
  exact hnot (by decide : 18 < 20)

/-- A header that declares no byte at all is there as a whole; in a datagram that lost its end it is
called a message of no bytes that was truncated to sixteen. -/
theorem undersized_called_truncated :
    let cut : Datagram := {
      data := [0, 0, 0, 0, 16, 0, 2, 0, 0, 0, 0, 0, 0, 0, 0, 0]
      truncated := true }
    Undersized cut 0 ∧
      (listen sampleListener [] (sampleHeard [.datagram cut])).1.1 = .error (.truncated 0 16) ∧
      ¬ Short (.truncated 0 16) := by
  intro cut
  refine ⟨⟨rfl, by decide +kernel, by decide⟩, eq_error_of_failure? (by decide +kernel), ?_⟩
  exact fun hshort => absurd hshort (by decide : ¬ 16 < 0)

end Connection
end Netlink
