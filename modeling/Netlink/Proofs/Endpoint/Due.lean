import Netlink.Endpoint.Script
import Netlink.Proofs.Conversation.Arrivals

/-! # What a script brings

The arrivals of a scripted endpoint are those of its queue that come in time, up to the first that
is no datagram. -/

namespace Netlink.Script

/-- The datagrams that a queue brings, and the failure that ends them. -/
def due (patience : Option Nat) : List Arrival → List Datagram × Error
  | [] => ([], .endOfFile)
  | a :: as =>
    if inTime patience a.delay then
      match a.outcome with
      | .datagram d => (d :: (due patience as).1, (due patience as).2)
      | .fault number => ([], .io (.os number))
      | .endOfFile => ([], .endOfFile)
      | .silence => ([], .timedOut)
    else ([], .timedOut)

theorem arrivals_eq_due {s : Script} (hopen : s.closed = false) (patience : Option Nat) :
    Transport.arrivals patience s = due patience s.queue := by
  induction hqueue : s.queue generalizing s with
  | nil =>
    have hreceive : Transport.receive patience s = (.error .endOfFile, s) := by
      simp only [Transport.receive, receive, hopen, hqueue, Bool.false_eq_true, if_false]
    exact Transport.arrivals_of_error hreceive
  | cons a as ih =>
    have hlater : Transport.arrivals patience { s with queue := as, closed := false } =
        due patience as := ih rfl rfl
    obtain ⟨r, s', hreceive⟩ : ∃ r s', Transport.receive patience s = (r, s') := ⟨_, _, rfl⟩
    have htaken := hreceive
    simp only [Transport.receive, receive, hopen, hqueue, Bool.false_eq_true, if_false] at htaken
    rw [due]
    by_cases htime : inTime patience a.delay = true
    · rw [if_pos htime] at htaken ⊢
      cases houtcome : a.outcome with
      | datagram d =>
        rw [houtcome, Prod.mk.injEq] at htaken
        rw [← htaken.1, ← htaken.2] at hreceive
        rw [Transport.arrivals_of_ok hreceive, hlater]
      | fault _ | endOfFile | silence =>
        rw [houtcome, Prod.mk.injEq] at htaken
        rw [← htaken.1] at hreceive
        exact Transport.arrivals_of_error hreceive
    · rw [if_neg htime, Prod.mk.injEq] at htaken
      rw [← htaken.1] at hreceive
      rw [if_neg htime]
      exact Transport.arrivals_of_error hreceive

/-- A queue of datagrams brings them all, and then ends. -/
theorem due_datagrams (ds : List Datagram) :
    due none (ds.map fun d => { outcome := .datagram d }) = (ds, .endOfFile) := by
  induction ds with
  | nil => rfl
  | cons d ds ih =>
    simp only [List.map_cons, due, ih]
    rfl

end Netlink.Script
