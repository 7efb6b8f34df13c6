import Netlink.Proofs.Conversation.Failing

/-! # The numbers of refusals

The kernel refuses with a code, and the failure carries the size of the code as its number. A code
of zero reports that nothing failed, and someone who waits for answers takes it so. Someone who
reads a dump does not: there an ERROR is a failure whatever its code. -/

namespace Netlink

namespace Error

theorem number_eq_zero {code : Int32} : number code = 0 ↔ code = 0 := by
  have hzero : code.toInt = 0 ↔ code = 0 := by
    rw [← Int32.toInt_zero, Int32.toInt_inj]
  rw [← hzero, number]
  omega

/-- The failure is no refusal, or it has the number of a code other than zero. -/
def Numbered (e : Error) : Prop :=
  ∀ n, e.errno? = some n → 1 ≤ n ∧ ∃ code : Int32, code ≠ 0 ∧ n = number code

theorem Numbered.of_uncoded {e : Error} (h : e.errno? = none) : e.Numbered := by
  intro n hn
  rw [h] at hn
  cases hn

theorem Numbered.ofCode {code : Int32} (h : code ≠ 0) (detail : Option String) :
    (Error.ofCode code detail).Numbered := by
  intro n hn
  cases hn
  have hpositive : number code ≠ 0 := fun hzero => h (number_eq_zero.mp hzero)
  exact ⟨by omega, code, h, rfl⟩

end Error

/-- A refusal of a request has the number of a code other than zero. -/
theorem Error.OfRequest.numbered {e : Error} (h : e.OfRequest) : e.Numbered := by
  cases h with
  | endpoint h => exact .of_uncoded (errno?_of_ofEndpoint h)
  | contents h => exact .of_uncoded (errno?_of_ofContents h)
  | framing fault => exact .of_uncoded rfl
  | refused failed detail => exact .ofCode failed detail

theorem Error.OfLookup.numbered {e : Error} (h : e.OfLookup) : e.Numbered := by
  cases h with
  | request h => exact h.numbered
  | noInterface name => exact .of_uncoded rfl
  | noFamily name => exact .of_uncoded rfl

/-! ## Dumps -/

namespace Dump

/-- The outstanding dump of a connection is ended by this message, and its code has this number.
Only an ERROR can do that with a code of zero. -/
structure BrokenOff {σ : Type} [Transport σ] (c : Connection σ) (m : Message) (n : Nat) : Prop where
  ending : ending? c.state.port c.state.dumpSeq
    ((Transport.arrivals c.state.config.timeout c.endpoint).1.flatMap Datagram.messages) = some m
  number : n = Error.number m.code
  zero : n = 0 ↔ m.header.isError = true ∧ m.code = 0

theorem ends_of_ending? {port number : UInt32} {ms : List Message} {m : Message}
    (h : ending? port number ms = some m) : ends m = true :=
  List.find?_some h

theorem code_of_errorResult {protocol : Protocol} {m : Message} {e : Error} {n : Nat}
    (h : errorResult protocol m = .error e) (hn : e.errno? = some n) : n = Error.number m.code := by
  unfold errorResult at h
  split at h
  · cases h
    cases hn
  · split at h
    · cases h
    · cases h
      exact (Option.some.inj hn).symm

theorem code_of_doneResult {m : Message} {e : Error} {n : Nat} (h : doneResult m = .error e)
    (hn : e.errno? = some n) : n = Error.number m.code ∧ m.code ≠ 0 := by
  unfold doneResult at h
  split at h
  · cases h
    cases hn
  · split at h
    · cases h
    · rename_i hnegative
      cases h
      refine ⟨(Option.some.inj hn).symm, ?_⟩
      rintro hzero
      rw [hzero] at hnegative
      exact hnegative (Int32.le_refl 0)

end Dump

namespace Connection
open Netlink.Action (FailsWith)
open Error (Numbered)

variable {σ : Type} [Transport σ] [Transport.Plain σ]

/-- A dump that fails with a number was refused by a consumer, or the message that ends it says so.
-/
theorem brokenOff_of_readDump {β : Type} {ks : List (Consumer β)} {memory : β} {c : Connection σ}
    {e : Error} {n : Nat} (h : (readDump ks memory c).1.1 = .error e) (hn : e.errno? = some n) :
    (∃ k ∈ ks, ∃ m memory, (k.accept m memory).value.1 = .error e) ∨ ∃ m, Dump.BrokenOff c m n := by
  obtain ⟨e', hfailed, hfails, -⟩ | hclosed := readDump_closes ks memory c
  · cases hfailed.symm.trans h
    rw [Error.errno?_of_ofEndpoint (Transport.Plain.of_fails hfails)] at hn
    cases hn
  · generalize (readDump ks memory c).2.state = c' at hclosed
    generalize (readDump ks memory c).1.1 = result at hclosed h
    cases hclosed with
    | faulty _ fault =>
      cases h
      obtain rfl | ⟨_, rfl⟩ := fault <;> cases hn
    | @declined k m memory _ _ member _ declines =>
      cases h
      exact .inl ⟨k, member, m, memory, declines⟩
    | @error k m c₁ _ _ _ ending kind =>
      have hresult := (Dump.onError_result c₁ (m.clearing k.clears)).symm.trans h
      have hnumber := Dump.code_of_errorResult hresult hn
      have herror : m.header.isError = true := by
        have hends := Dump.ends_of_ending? ending
        rw [Dump.ends, kind] at hends
        exact hends
      refine .inr ⟨m, ending, hnumber, ?_⟩
      rw [hnumber, Error.number_eq_zero]
      exact ⟨fun hzero => ⟨herror, hzero⟩, And.right⟩
    | @done m c₁ _ _ _ _ ending kind _ =>
      have hresult := (Dump.onDone_result c₁ m).symm.trans h
      obtain ⟨hnumber, hcode⟩ := Dump.code_of_doneResult hresult hn
      refine .inr ⟨m, ending, hnumber, ?_⟩
      rw [hnumber, Error.number_eq_zero]
      exact ⟨fun hzero => absurd hzero hcode, fun hzero => absurd hzero.2 hcode⟩

/-- A dump that is asked for and then gathered by someone who refuses nothing with a number. -/
theorem brokenOff_of_gather {β : Type} {prepare : Action σ Unit} {k : Consumer β} {memory : β}
    {c : Connection σ} {e : Error} {n : Nat}
    (hprepare : ∀ e, (prepare c).1 = .error e → e.errno? = none)
    (hrefuses : ∀ m memory e, (k.accept m memory).value.1 = .error e → e.errno? = none)
    (h : ((prepare >>= fun _ => gather k memory) c).1 = .error e) (hn : e.errno? = some n) :
    ∃ m, Dump.BrokenOff (prepare c).2 m n := by
  rw [Action.bind_eq] at h
  rcases hrun : prepare c with ⟨e' | _, c'⟩
  · rw [hrun] at h
    cases h
    rw [hprepare e (congrArg Prod.fst hrun)] at hn
    cases hn
  · rw [hrun] at h
    have hread : (readDump [k] memory c').1.1 = .error e := by
      change (gather k memory c').1 = .error e at h
      unfold gather at h
      rcases hgathered : readDump [k] memory c' with ⟨⟨e' | _, memory'⟩, c₁⟩
      · rw [hgathered] at h
        cases h
        rfl
      · rw [hgathered] at h
        cases h
    obtain ⟨k', hk', m, memory', hdeclines⟩ | hbroken := brokenOff_of_readDump hread hn
    · obtain rfl := List.mem_singleton.mp hk'
      rw [hrefuses m memory' e hdeclines] at hn
      cases hn
    · exact hbroken

theorem sendDump_uncoded (d : Draft) :
    FailsWith (·.errno? = none) (sendDump d : Action σ Unit) := by
  refine .bind (fun c e he => ?_) fun seq =>
    (send_fails _).mono fun _ => Error.errno?_of_ofEndpoint
  cases he

theorem requestAllLinks_uncoded (family : UInt8) (type : UInt16) :
    FailsWith (·.errno? = none) (requestAllLinks family type : Action σ Unit) := by
  refine .bind (.settling fun e he => ?_) sendDump_uncoded
  have hcontents : FailsOnContents (Dump.linkRequest family type Link.virtualFunctions) :=
    .bind (Draft.failsOnContents_addRaw _ _) fun d => d.failsOnContents_add _
  exact Error.errno?_of_ofContents (hcontents e he)

omit [Transport σ] [Transport.Plain σ] in
theorem collect_uncoded (m : Message) (links : List Link) (e : Error)
    (h : (Link.collect m links).value.1 = .error e) : e.errno? = none := by
  unfold Link.collect at h
  split at h
  · unfold Handled.reading at h
    split at h
    · cases h
    · rename_i e' hread
      cases h
      exact Error.errno?_of_ofContents (Link.failsOnContents_read _ e hread)
  · cases h

/-- **A refusal has the number of its code, and only a dump can be refused with a code of zero.**
Whoever waits for answers, looks for an early refusal, or changes or asks for something by name
fails with a number only if the kernel sent a code other than zero, and the number is at least one.
A dump fails with a number only if a consumer does, or if the message that ends it has the code; the
number is zero exactly if that is an ERROR with a code of zero. -/
theorem refusals_numbered :
    (∀ requests, FailsWith Numbered (requestAll requests : Action σ Unit)) ∧
    (∀ d, FailsWith Numbered (request d : Action σ Unit)) ∧
    (∀ d handler, FailsWith Numbered (requestReporting d handler : Action σ Unit)) ∧
    (∀ d, FailsWith Numbered (requestQuietly d : Action σ Unit)) ∧
    (∀ d, FailsWith Numbered (ask d : Action σ Bytes)) ∧
    (∀ message, FailsWith Numbered (postChecked message : Action σ Unit)) ∧
    (∀ name, FailsWith Numbered (linkNamed name : Action σ Link) ∧
      (∀ up, FailsWith Numbered (setLinkState name up : Action σ Unit)) ∧
      (∀ mtu, FailsWith Numbered (setLinkMtu name mtu : Action σ Unit)) ∧
      FailsWith Numbered (deleteLink name : Action σ Unit) ∧
      FailsWith Numbered (family name : Action σ Family)) ∧
    (∀ {β : Type} (ks : List (Consumer β)) (memory : β) (c : Connection σ) (e : Error) (n : Nat),
      (readDump ks memory c).1.1 = .error e → e.errno? = some n →
      (∃ k ∈ ks, ∃ m memory, (k.accept m memory).value.1 = .error e) ∨
        ∃ m, Dump.BrokenOff c m n) ∧
    (∀ (d : Draft) (c : Connection σ) (e : Error) (n : Nat), (dump d c).1 = .error e →
      e.errno? = some n → ∃ m, Dump.BrokenOff (requestDumpBy d c).2 m n) ∧
    ∀ (c : Connection σ) (e : Error) (n : Nat), (links c).1 = .error e → e.errno? = some n →
      ∃ m, Dump.BrokenOff (requestAllLinks 0 MessageType.getLink c).2 m n := by
  have hrequest {α : Type} {x : Action σ α} (h : FailsWith Error.OfRequest x) :
      FailsWith Numbered x := h.mono fun _ => Error.OfRequest.numbered
  have hlookup {α : Type} {x : Action σ α} (h : FailsWith Error.OfLookup x) :
      FailsWith Numbered x := h.mono fun _ => Error.OfLookup.numbered
  refine ⟨fun ds => hrequest (requestAll_fails ds), fun d => hrequest (requestAll_fails [d]),
    fun d handler => hrequest (requestReporting_fails d handler),
    fun d => hrequest (requestQuietly_fails d), fun d => hrequest (ask_fails d),
    fun message => hrequest (postChecked_fails message),
    fun name => ⟨hlookup (linkNamed_fails name), fun up => hlookup (setLinkState_fails name up),
      fun mtu => hlookup (setLinkMtu_fails name mtu), hlookup (deleteLink_fails name),
      hlookup (family_fails name)⟩, ?_, ?_, ?_⟩
  · intro β ks memory c e n h hn
    exact brokenOff_of_readDump h hn
  · intro d c e n h hn
    exact brokenOff_of_gather (fun e he => sendDump_uncoded _ c e he)
      (fun m memory e he => by cases he) h hn
  · intro c e n h hn
    exact brokenOff_of_gather (fun e he => requestAllLinks_uncoded _ _ c e he) collect_uncoded h hn

open Dump (sampleArrivals sampleTaker)

/-- Refusals of request 8 with the least code there is, and of dump 7. -/
theorem refusals_numbered_sample :
    let arriving (number code : UInt32) :=
      sampleArrivals [{ data := Packet.records [sampleAck number code] }] none
    (request (Draft.new 16 1) (arriving 8 0x80000000)).1 = .error (.kernel 2147483647 none) ∧
      Numbered (.kernel 2147483647 none) ∧
      (readDump [sampleTaker 0] () (arriving 7 0xffffffea)).1.1 = .error (.kernel 22 none) ∧
      ∃ m, Dump.BrokenOff (arriving 7 0xffffffea) m 22 := by
  intro arriving
  have hrefused : (request (Draft.new 16 1) (arriving 8 0x80000000)).1 =
      .error (.kernel 2147483647 none) := eq_error_of_failure? (by decide +kernel)
  have hbroken : (readDump [sampleTaker 0] () (arriving 7 0xffffffea)).1.1 =
      .error (.kernel 22 none) := eq_error_of_failure? (by decide +kernel)
  obtain ⟨-, hrequest, -, -, -, -, -, hdump, -⟩ := @refusals_numbered Script _ _
  refine ⟨hrefused, hrequest _ _ _ hrefused, hbroken, ?_⟩
  obtain ⟨k, hk, m, memory, hdeclines⟩ | hended := hdump _ _ _ _ _ hbroken rfl
  · rw [List.mem_singleton.mp hk] at hdeclines
    cases hdeclines
  · exact hended

/-- A dump that an ERROR without a code ends has failed, with the number of no failure. -/
theorem dump_refused_with_zero :
    let c := sampleArrivals [{ data := Packet.records [sampleAck 7 0] }] none
    (readDump [sampleTaker 0] () c).1.1 = .error (.kernel 0 none) ∧
      Dump.BrokenOff c ((sampleAck 7 0).message 0) 0 ∧ ¬ Numbered (.kernel 0 none) := by
  intro c
  refine ⟨eq_error_of_failure? (by decide +kernel), ⟨by decide +kernel, rfl, ?_⟩, fun h => ?_⟩
  · exact ⟨fun _ => ⟨rfl, by decide +kernel⟩, fun _ => rfl⟩
  · obtain ⟨hpositive, -⟩ := h 0 rfl
    omega

end Connection
end Netlink
