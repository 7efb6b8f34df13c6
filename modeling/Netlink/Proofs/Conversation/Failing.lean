import Netlink.Proofs.Conversation.Telling
import Netlink.Proofs.Generic.Reading

/-! # How asking fails

Whoever asks for something fails because the endpoint does, because a message cannot be built or
read, because a datagram is no run of messages, or because the kernel refuses with a code other than
zero. Whoever asks by name may also find that there is nothing of the name. -/

namespace Netlink

/-- How a request fails. -/
inductive Error.OfRequest : Error → Prop
  | endpoint {e : Error} (h : e.ofEndpoint = true) : OfRequest e
  | contents {e : Error} (h : e.ofContents = true) : OfRequest e
  | framing (fault : FramingFault) : OfRequest (.framing fault)
  | refused {code : Int32} (failed : code ≠ 0) (detail : Option String) :
      OfRequest (Error.ofCode code detail)

/-- How a request about something of a name fails. -/
inductive Error.OfLookup : Error → Prop
  | request {e : Error} (h : e.OfRequest) : OfLookup e
  | noInterface (name : String) : OfLookup (.interfaceNotFound name)
  | noFamily (name : String) : OfLookup (.familyNotFound name)

/-! ## Actions -/

namespace Action

variable {σ α β : Type} {P : Error → Prop}

/-- Where it fails, the failure is of this kind. -/
def FailsWith (P : Error → Prop) (x : Action σ α) : Prop := ∀ c e, (x c).1 = .error e → P e

theorem FailsWith.mono {Q : Error → Prop} {x : Action σ α} (h : FailsWith P x)
    (himp : ∀ e, P e → Q e) : FailsWith Q x :=
  fun c e he => himp e (h c e he)

theorem FailsWith.pure (a : α) : FailsWith P (Pure.pure a : Action σ α) := by
  intro c e he
  cases he

theorem FailsWith.get : FailsWith P (MonadState.get : Action σ (Connection σ)) := by
  intro c e he
  cases he

theorem FailsWith.throw {e : Error} (h : P e) :
    FailsWith P (MonadExcept.throw e : Action σ α) := by
  rintro c e' ⟨⟩
  exact h

theorem FailsWith.bind {x : Action σ α} {f : α → Action σ β} (hx : FailsWith P x)
    (hf : ∀ a, FailsWith P (f a)) : FailsWith P (x >>= f) := by
  intro c e he
  rw [bind_eq] at he
  rcases hrun : x c with ⟨e' | a, c'⟩
  · rw [hrun] at he
    cases he
    exact hx c e (congrArg Prod.fst hrun)
  · rw [hrun] at he
    exact hf a c' e he

theorem FailsWith.settling {x : Except Error α} (h : ∀ e, x = .error e → P e) :
    FailsWith P (Connection.settling x : Action σ α) :=
  fun _ e he => h e he

theorem FailsWith.reading {x : Decoded α} (h : ∀ e, x.result = .error e → P e) :
    FailsWith P (Connection.reading x : Action σ α) :=
  fun _ e he => h e he

theorem FailsWith.mapError {Q : Error → Prop} {x : Action σ α} {f : Error → Error}
    (hx : FailsWith P x) (hf : ∀ e, P e → Q (f e)) : FailsWith Q (Connection.mapError f x) := by
  intro c e he
  unfold Connection.mapError at he
  rcases hrun : x c with ⟨e' | a, c'⟩
  · rw [hrun] at he
    cases he
    exact hf e' (hx c e' (congrArg Prod.fst hrun))
  · rw [hrun] at he
    cases he

end Action

theorem Exchange.Fault.ofRequest {e : Error} (h : Exchange.Fault e) : e.OfRequest := by
  cases h with
  | nothing => exact .contents rfl
  | short hshort => exact .contents (decide_eq_true hshort)
  | framing fault => exact .framing fault

theorem Exchange.Closes.ofRequest {x : Exchange} {c c' : Conversation}
    {result : Except Error (Option Bytes)} (h : x.Closes c c' result) {e : Error}
    (he : result = .error e) : e.OfRequest := by
  cases h with
  | uncoded _ cause => exact (cause e he).ofRequest
  | refused _ _ failed =>
    cases he
    exact .refused failed _

namespace Connection
open Netlink.Action (FailsWith)
open Error (OfRequest OfLookup)

section Plain

variable {σ : Type} [Transport σ] [Transport.Plain σ]

theorem send_fails (pieces : List Bytes) :
    FailsWith (·.ofEndpoint = true) (send pieces : Action σ Unit) := by
  intro c e he
  have hsend : (Transport.send pieces c.endpoint).1 = .error e := he
  exact Transport.Plain.send (Prod.ext hsend rfl)

theorem peek_fails : FailsWith (·.ofEndpoint = true) (peek : Action σ (Option Bytes)) := by
  intro c e he
  have hpeek : (Transport.peek c.endpoint).1 = .error e := he
  exact Transport.Plain.peek (Prod.ext hpeek rfl)

/-! ## Waiting for answers -/

theorem exchange_fails (requests : List Draft) (wantsAnswer quiet : Bool) (handler : AckHandler) :
    FailsWith OfRequest (exchange requests wantsAnswer quiet handler : Action σ (Option Bytes)) := by
  intro c e he
  obtain ⟨e', hfailed, hfails, -⟩ | hclosed :=
    exchange_closes requests wantsAnswer quiet handler c
  · cases hfailed.symm.trans he
    exact .endpoint (Transport.Plain.of_fails hfails)
  · exact hclosed.ofRequest he

theorem requestAll_fails (requests : List Draft) :
    FailsWith OfRequest (requestAll requests : Action σ Unit) :=
  .bind .get fun _ => .bind (exchange_fails _ _ _ _) fun _ => .pure ()

theorem requestReporting_fails (d : Draft) (handler : AckHandler) :
    FailsWith OfRequest (requestReporting d handler : Action σ Unit) :=
  .bind .get fun _ => .bind (exchange_fails _ _ _ _) fun _ => .pure ()

theorem requestQuietly_fails (d : Draft) :
    FailsWith OfRequest (requestQuietly d : Action σ Unit) :=
  .bind .get fun _ => .bind (exchange_fails _ _ _ _) fun _ => .pure ()

theorem ask_fails (d : Draft) : FailsWith OfRequest (ask d : Action σ Bytes) := by
  refine .bind .get fun _ => .bind (exchange_fails _ _ _ _) fun answer => ?_
  cases answer with
  | some bytes => exact .pure bytes
  | none => exact .throw (.contents rfl)

/-- Looking for an early refusal fails with one that is a refusal. -/
theorem postChecked_fails (message : Bytes) :
    FailsWith OfRequest (postChecked message : Action σ Unit) := by
  refine .bind ((send_fails _).mono fun _ => .endpoint) fun _ =>
    .bind (peek_fails.mono fun _ => .endpoint) fun arrived => ?_
  cases arrived with
  | none => exact .pure ()
  | some bytes =>
    dsimp only
    cases firstError? (Frame.walk bytes).frames with
    | none => exact .pure ()
    | some f =>
      dsimp only
      cases hdecode : ErrorReply.decode f.payload with
      | error e =>
        have hcontents := ErrorReply.failsOnContents_decode f.payload e hdecode
        refine .bind (fun _ _ h => ?_) fun _ => .throw (.contents hcontents)
        cases h
      | ok reply =>
        dsimp only
        split
        · exact .pure ()
        · rename_i hrefused
          exact .throw (.refused (by simpa [ErrorReply.isAck] using hrefused) none)

end Plain

/-! ## Asking by name -/

section Naming

variable {σ : Type}

theorem settling_fails {α : Type} {x : Except Error α} (h : FailsOnContents x) :
    FailsWith OfLookup (settling x : Action σ α) :=
  .settling fun e he => .request (.contents (h e he))

theorem reading_fails {α : Type} {x : Decoded α} (h : FailsOnContents x.result) :
    FailsWith OfLookup (reading x : Action σ α) :=
  .reading fun e he => .request (.contents (h e he))

theorem ofLookup_missing (name : String) {e : Error} (h : e.OfRequest) :
    (Link.missing name e).OfLookup := by
  unfold Link.missing
  split
  · exact .noInterface name
  · exact .request h

variable [Transport σ] [Transport.Plain σ]

/-- A request about the interface of a name that is built and then acknowledged. -/
theorem change_fails {request? : Except Error Draft} (h : FailsOnContents request?)
    (name : String) :
    FailsWith OfLookup (do
      let d ← settling request?
      mapError (Link.missing name) (request d) : Action σ Unit) :=
  .bind (settling_fails h) fun d =>
    .mapError (requestAll_fails [d]) fun _ => ofLookup_missing name

theorem setLinkState_fails (name : String) (up : Bool) :
    FailsWith OfLookup (setLinkState name up : Action σ Unit) :=
  change_fails (Link.failsOnContents_namedRequest _ _ name) name

theorem setLinkMtu_fails (name : String) (mtu : UInt32) :
    FailsWith OfLookup (setLinkMtu name mtu : Action σ Unit) :=
  change_fails (Link.failsOnContents_mtuRequest name mtu) name

theorem deleteLink_fails (name : String) :
    FailsWith OfLookup (deleteLink name : Action σ Unit) :=
  change_fails (Link.failsOnContents_namedRequest _ _ name) name

theorem linkNamed_fails (name : String) : FailsWith OfLookup (linkNamed name : Action σ Link) := by
  refine .bind (settling_fails (Link.failsOnContents_getRequest name)) fun d => ?_
  exact .bind (.mapError (ask_fails d) fun _ => ofLookup_missing name) fun answer =>
    reading_fails (Link.failsOnContents_readMessage answer)

theorem family_fails (name : String) : FailsWith OfLookup (family name : Action σ Family) := by
  refine .bind (settling_fails (Family.failsOnContents_getRequest name)) fun d => ?_
  refine .bind (.mapError (ask_fails d) fun e he => ?_) fun answer =>
    reading_fails (Family.failsOnContents_readMessage answer)
  unfold Family.missing
  split
  · exact .noFamily name
  · exact .request he

end Naming
end Connection
end Netlink
