import Netlink.Endpoint.Script
import Netlink.Proofs.Conversation.Arrivals
import Netlink.Socket.Basic

/-! # How an endpoint fails

An endpoint knows nothing of what is in its datagrams. It fails because a system call does, because
the other side is gone, because it has been closed or because a wait took too long, and never as if
the kernel had refused something. -/

namespace Netlink

/-- The failure says nothing about messages. -/
def Error.ofEndpoint : Error → Bool
  | .io _ | .endOfFile | .closed | .timedOut => true
  | _ => false

/-- A failure of an endpoint has no number of the kernel's. -/
theorem Error.errno?_of_ofEndpoint {e : Error} (h : e.ofEndpoint = true) : e.errno? = none := by
  cases e with
  | kernel | kernelDuring => cases h
  | _ => rfl

/-- An endpoint whose failures say nothing about messages. -/
class Transport.Plain (σ : Type) [Transport σ] : Prop where
  send {pieces : List Bytes} {s s' : σ} {e : Error} :
    Transport.send pieces s = (.error e, s') → e.ofEndpoint = true
  receive {patience : Option Nat} {s s' : σ} {e : Error} :
    Transport.receive patience s = (.error e, s') → e.ofEndpoint = true
  peek {s s' : σ} {e : Error} : Transport.peek s = (.error e, s') → e.ofEndpoint = true

namespace Transport

variable {σ : Type} [Transport σ]

/-- Something that is asked of the endpoint can fail like this. -/
def Fails (σ : Type) [Transport σ] (e : Error) : Prop :=
  (∃ pieces, ∃ s s' : σ, Transport.send pieces s = (.error e, s')) ∨
    (∃ patience, ∃ s s' : σ, Transport.receive patience s = (.error e, s')) ∨
    ∃ s s' : σ, Transport.peek s = (.error e, s')

/-- What an endpoint brings ends with a failure of its own. -/
theorem fails_arrivals (patience : Option Nat) (s : σ) : Fails σ (arrivals patience s).2 := by
  fun_induction arrivals patience s with
  | case1 _ _ _ _ _ ih => exact ih
  | case2 s _ s' hreceive => exact .inr (.inl ⟨patience, s, s', hreceive⟩)

theorem Plain.of_fails [Plain σ] {e : Error} (h : Fails σ e) : e.ofEndpoint = true := by
  obtain ⟨_, _, _, h⟩ | ⟨_, _, _, h⟩ | ⟨_, _, h⟩ := h
  · exact Plain.send h
  · exact Plain.receive h
  · exact Plain.peek h

end Transport

namespace Script

variable {s s' : Script} {e : Error}

theorem ofEndpoint_of_send {pieces : List Bytes} (h : s.send pieces = (.error e, s')) :
    e.ofEndpoint = true := by
  unfold send at h
  split at h
  · cases h
    rfl
  · split at h
    · cases h
      rfl
    · cases h
    · cases h

theorem ofEndpoint_of_receive {patience : Option Nat} (h : s.receive patience = (.error e, s')) :
    e.ofEndpoint = true := by
  unfold receive at h
  split at h
  · cases h
    rfl
  · split at h
    · cases h
      rfl
    · dsimp only at h
      split at h
      · split at h <;> cases h <;> rfl
      · cases h
        rfl

theorem ofEndpoint_of_peek (h : s.peek = (.error e, s')) : e.ofEndpoint = true := by
  unfold peek at h
  split at h
  · cases h
    rfl
  · split at h <;> cases h
    rfl

instance : Transport.Plain Script where
  send := ofEndpoint_of_send
  receive := ofEndpoint_of_receive
  peek := ofEndpoint_of_peek

end Script

namespace Socket

variable {e : Error}

theorem ofEndpoint_of_sendRaw {pieces : List Bytes} {h h' : Host}
    (hsend : sendRaw pieces h = (.error e, h')) : e.ofEndpoint = true := by
  fun_induction sendRaw pieces h with
  | case1 => cases hsend
  | case2 _ _ _ ih => exact ih hsend
  | case3 =>
    cases hsend
    rfl

theorem ofEndpoint_of_receiveRaw {patience : Option Nat} {h h' : Host}
    (hreceive : receiveRaw patience h = (.error e, h')) : e.ofEndpoint = true := by
  fun_induction receiveRaw patience h with
  | case1 =>
    cases hreceive
    rfl
  | case2 => cases hreceive
  | case3 _ _ _ _ _ ih => exact ih hreceive
  | case4 =>
    cases hreceive
    rfl

theorem ofEndpoint_of_peek {s s' : Socket} (h : s.peek = (.error e, s')) :
    e.ofEndpoint = true := by
  have hsettle : ∀ {n : Nat} {host : Host},
      ((if n = Errno.wouldBlock then .ok none else .error (refused n), { s with host }) :
        Except Error (Option Bytes) × Socket) = (.error e, s') → e.ofEndpoint = true := by
    intro n host hn
    split at hn <;> cases hn
    rfl
  unfold peek at h
  split at h
  · dsimp only at h
    split at h
    · exact hsettle h
    · split at h
      · exact hsettle h
      · cases h
  · cases h
    rfl

instance : Transport.Plain Socket where
  send {pieces s s' e} h := by
    change Socket.send pieces s = _ at h
    unfold Socket.send at h
    split at h
    · obtain ⟨outcome, host, hraw⟩ : ∃ outcome host, sendRaw pieces s.host = (outcome, host) :=
        ⟨_, _, rfl⟩
      rw [hraw] at h
      cases h
      exact ofEndpoint_of_sendRaw hraw
    · cases h
      rfl
  receive {patience s s' e} h := by
    change Socket.receive patience s = _ at h
    unfold Socket.receive at h
    split at h
    · split at h
      · rename_i hraw
        cases h
        exact ofEndpoint_of_receiveRaw hraw
      · split at h <;> cases h
        rfl
    · cases h
      rfl
  peek := ofEndpoint_of_peek

end Socket
end Netlink
