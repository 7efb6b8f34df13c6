import Netlink.Proofs.Conversation.Numbering

/-! # What leaves an endpoint

To tell what is sent over an endpoint, someone beside it notes what each send is given. Nobody who
uses the endpoint can see the notes, so a conversation over it is the same conversation; and someone
who only reads adds nothing to them. -/

namespace Netlink

/-- An endpoint with notes of what was sent over it: the pieces of each datagram, in order, whether
they could be sent or not. -/
structure Outbox (σ : Type) where
  endpoint : σ
  sends : List (List Bytes)

namespace Outbox

variable {σ : Type} [Transport σ]

instance : Transport (Outbox σ) where
  protocol o := Transport.protocol o.endpoint
  port o := Transport.port o.endpoint
  send pieces o :=
    let (outcome, endpoint) := Transport.send pieces o.endpoint
    (outcome, ⟨endpoint, o.sends ++ [pieces]⟩)
  receive patience o :=
    let (outcome, endpoint) := Transport.receive patience o.endpoint
    (outcome, ⟨endpoint, o.sends⟩)
  peek o :=
    let (outcome, endpoint) := Transport.peek o.endpoint
    (outcome, ⟨endpoint, o.sends⟩)
  close o :=
    let (endpoint, log) := Transport.close o.endpoint
    (⟨endpoint, o.sends⟩, log)
  pending o := Transport.pending o.endpoint
  pending_of_datagram {_ o _ _} h := by
    obtain ⟨houtcome, rfl⟩ := Prod.mk.inj h
    exact Transport.pending_of_datagram (Prod.ext houtcome rfl)
  pending_of_fault {_ o _ _} h := by
    obtain ⟨houtcome, rfl⟩ := Prod.mk.inj h
    exact Transport.pending_of_fault (Prod.ext houtcome rfl)

theorem receive_eq {patience : Option Nat} {s s' : σ} {outcome : Except Error Datagram}
    (h : Transport.receive patience s = (outcome, s')) (sends : List (List Bytes)) :
    Transport.receive patience (⟨s, sends⟩ : Outbox σ) = (outcome, ⟨s', sends⟩) :=
  congrArg (fun r : Except Error Datagram × σ => (r.1, (⟨r.2, sends⟩ : Outbox σ))) h

end Outbox

namespace Connection

open Exchange (stamp)

variable {σ : Type} [Transport σ]

/-- The connection with notes of what was sent over it before. -/
def noting (c : Connection σ) (sends : List (List Bytes)) : Connection (Outbox σ) :=
  ⟨⟨c.endpoint, sends⟩, c.state⟩

theorem send_noting (pieces : List Bytes) (c : Connection σ) (sends : List (List Bytes)) :
    send pieces (c.noting sends) =
      ((send pieces c).1, (send pieces c).2.noting (sends ++ [pieces])) := rfl

theorem receive_noting {c : Connection σ} {patience : Option Nat}
    {outcome : Except Error Datagram} {s : σ}
    (h : Transport.receive patience c.endpoint = (outcome, s)) (sends : List (List Bytes)) :
    Transport.receive patience (c.noting sends).endpoint = (outcome, ⟨s, sends⟩) :=
  Outbox.receive_eq h sends

/-- Reading sends nothing. -/
theorem drain_noting {β α : Type} (r : Reader β α) (c : Connection σ) (memory : β)
    (sends : List (List Bytes)) :
    (c.noting sends).drain r memory =
      ((c.drain r memory).1, (c.drain r memory).2.noting sends) := by
  -- every receive is the same receive with the notes beside it
  fun_induction Connection.drain r c memory with
  | case1 c memory d s hreceive state c' memory' hmore ih =>
    have hstep : r.step d ((c.noting sends).state.heard d) memory = .more c' memory' := hmore
    exact (drain_of_more (receive_noting hreceive sends) hstep).trans ih
  | case2 c memory d s hreceive state c' memory' result hfinished =>
    have hstep : r.step d ((c.noting sends).state.heard d) memory =
        .finished c' memory' result := hfinished
    exact drain_of_finished (receive_noting hreceive sends) hstep
  | case3 c memory fault s hreceive hsurvives ih =>
    exact (drain_of_overrun (receive_noting hreceive sends) hsurvives).trans ih
  | case4 c memory fault s hreceive hdies =>
    refine drain_of_failed (receive_noting hreceive sends) fun fault' hfault => ?_
    cases hfault
    exact Bool.eq_false_iff.mpr hdies
  | case5 c memory e s hother hreceive =>
    exact drain_of_failed (receive_noting hreceive sends) fun fault hfault =>
      absurd hfault (hother fault)

/-- An exchange sends one datagram, whatever becomes of it. -/
theorem exchange_noting {requests : List Draft} (hsome : requests ≠ []) (wantsAnswer quiet : Bool)
    (handler : AckHandler) (c : Connection σ) (sends : List (List Bytes)) :
    let outcome := exchange requests wantsAnswer quiet handler c
    let pieces := (stamp wantsAnswer requests c.state).1.map Draft.encode
    exchange requests wantsAnswer quiet handler (c.noting sends) =
      (outcome.1, outcome.2.noting (sends ++ [pieces])) := by
  intro outcome pieces
  have hplain : outcome = _ := exchange_run hsome c
  have hsend : send ((stamp wantsAnswer requests (c.noting sends).state).1.map Draft.encode)
      ⟨(c.noting sends).endpoint, (stamp wantsAnswer requests (c.noting sends).state).2⟩ = _ :=
    send_noting ((stamp wantsAnswer requests c.state).1.map Draft.encode)
      ⟨c.endpoint, (stamp wantsAnswer requests c.state).2⟩ sends
  rw [exchange_run hsome (c.noting sends), hsend, hplain]
  rcases send ((stamp wantsAnswer requests c.state).1.map Draft.encode)
    ⟨c.endpoint, (stamp wantsAnswer requests c.state).2⟩ with ⟨e | _, sent⟩
  · rfl
  · dsimp only
    rw [drain_noting]
    rfl

theorem requestAll_noting {requests : List Draft} (hsome : requests ≠ []) (c : Connection σ)
    (sends : List (List Bytes)) :
    requestAll requests (c.noting sends) =
      ((requestAll requests c).1, (requestAll requests c).2.noting
        (sends ++ [(stamp false requests c.state).1.map Draft.encode])) := by
  rw [requestAll_run, requestAll_run requests c]
  change (_, _) = _
  rw [exchange_noting hsome]
  rfl

theorem ask_noting (d : Draft) (c : Connection σ) (sends : List (List Bytes)) :
    ask d (c.noting sends) =
      ((ask d c).1,
        (ask d c).2.noting (sends ++ [(stamp true [d] c.state).1.map Draft.encode])) := by
  rw [ask_run, ask_run d c]
  change (_, _) = _
  rw [exchange_noting (List.cons_ne_nil d [])]
  rfl

/-! ## What an act sends -/

variable {α β : Type} {act : (τ : Type) → [Transport τ] → Action τ α} {c : Connection σ}
  {sends : List (List Bytes)}

/-- The act gives its endpoint these datagrams to send, each as its pieces, and no others. -/
def Sends (act : (τ : Type) → [Transport τ] → Action τ α) (c : Connection σ)
    (sends : List (List Bytes)) : Prop :=
  act (Outbox σ) (c.noting []) = ((act σ c).1, (act σ c).2.noting sends)

/-- To put another error in place of one sends nothing. -/
theorem Sends.mapError (h : Sends act c sends) (f : Error → Error) :
    Sends (fun τ _ => Connection.mapError f (act τ)) c sends := by
  have hnoted : act (Outbox σ) (c.noting []) = _ := h
  unfold Sends Connection.mapError
  dsimp only
  rw [hnoted]
  rcases act σ c with ⟨e | a, c'⟩ <;> rfl

/-- To read what has come sends nothing. -/
theorem Sends.reading (h : Sends act c sends) (read : α → Decoded β) :
    Sends (fun τ _ => act τ >>= fun a => Connection.reading (read a)) c sends := by
  have hnoted : act (Outbox σ) (c.noting []) = _ := h
  unfold Sends
  dsimp only
  rw [Action.bind_eq, Action.bind_eq, hnoted]
  rcases act σ c with ⟨e | a, c'⟩ <;> rfl

end Connection
end Netlink
