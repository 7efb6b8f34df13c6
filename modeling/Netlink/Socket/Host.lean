import Netlink.Protocol
import Netlink.Wire.Bytes
import Netlink.Report.Errno

/-! # System calls on a netlink socket

A host answers the calls that a socket makes and keeps a record of them. It follows a script: which
calls fail when the socket is set up, how the sends go, and what waits to be read, with the failures
that come before it can be. It also has news of the socket's readiness, which is taken in only by
waiting for it. -/

namespace Netlink

namespace Host

/-! ## Numbers of the calling convention -/

def netlinkFamily : Nat := 16
def socketLevel : Nat := 1
def netlinkLevel : Nat := 270
def sendBufferOption : Nat := 7
def receiveBufferOption : Nat := 8
def addMembershipOption : Nat := 1
def dropMembershipOption : Nat := 2
def allNamespacesOption : Nat := 8
def extendedAckOption : Nat := 11
/-- The datagram stays in the queue. -/
def peekFlag : Nat := 2
/-- The result is the size of the datagram, however small the buffer is. -/
def sizeFlag : Nat := 32
def noWaitFlag : Nat := 64
def controlRoom : Nat := 64
/-- The bytes of a control message in front of its contents. -/
def controlHeader : Nat := 16

/-! ## Calls -/

inductive Setup where
  | socket
  | option (level name : Nat)
  | bind
  | address
  deriving DecidableEq, Repr

/-- A call and its result, which is negative if the call failed. -/
inductive Call where
  | socket (protocol : Nat) (result : Int)
  | setOption (level name : Nat) (value : UInt32) (result : Int)
  | bind (family : Nat) (pid groups : UInt32) (result : Int)
  | address (result : Int)
  | send (pieces : List Bytes) (family : Nat) (pid : UInt32) (flags : Nat) (result : Int)
  | read (room flags : Nat) (result : Int)
  | readMessage (room control flags : Nat) (result : Int)
  deriving DecidableEq, Repr

/-- What the kernel says about a datagram apart from its contents. -/
structure Control where
  level : Int
  type : Int
  data : Bytes
  deriving DecidableEq, Repr

/-- Bytes of a control message in its buffer. -/
def Control.room (c : Control) : Nat := (controlHeader + c.data.length + 7) / 8 * 8

/-- How the next calls of a kind go: each fails with a number or succeeds. Those behind them all
succeed. -/
abbrev Faults := List (Option Nat)

/-- How the next call fails, if it does. -/
def Faults.next? (fs : Faults) : Option Nat := fs.head?.join

theorem Faults.length_tail_of_next? {fs : Faults} {n : Nat} (h : fs.next? = some n) :
    fs.tail.length < fs.length := by
  cases fs with
  | nil => simp [next?] at h
  | cons f fs => simp

/-- What a call may want of the first datagram. -/
inductive Wanted where
  | size
  | contents
  deriving DecidableEq, Repr

/-- A datagram that waits to be read, and how reading it goes. -/
structure Waiting where
  data : Bytes
  sender : UInt32 := 0
  control : List Control := []
  /-- The end of the datagram is missing. -/
  truncated : Bool := false
  /-- The size that is told, if it is not that of the data. -/
  toldSize : Option Nat := none
  /-- How the first calls that ask for the size go. -/
  sizeFaults : Faults := []
  /-- How the first calls that read go. -/
  readFaults : Faults := []
  /-- Nothing can be read, and no news of that ever comes. -/
  silent : Bool := false
  deriving DecidableEq, Repr

namespace Waiting

def told (w : Waiting) : Nat := w.toldSize.getD w.data.length

/-- How the first calls that want this go. -/
def faults (w : Waiting) : Wanted → Faults
  | .size => w.sizeFaults
  | .contents => w.readFaults

/-- The datagram once a call that wants this has been made. -/
def spend (w : Waiting) : Wanted → Waiting
  | .size => { w with sizeFaults := w.sizeFaults.tail }
  | .contents => { w with readFaults := w.readFaults.tail }

end Waiting

structure Received where
  data : Bytes
  sender : UInt32
  control : List Control
  truncated : Bool
  deriving DecidableEq, Repr

/-- What the owner of a socket knows of its readiness, and whether there is more to know. At first
nothing is known, and news waits to be taken in. -/
structure Readiness where
  readable : Bool := false
  writable : Bool := false
  /-- The socket became ready after its owner last waited for it. -/
  news : Bool := true
  deriving DecidableEq, Repr

namespace Readiness

/-- What is known once news has been taken in. It tells of both directions at once. -/
def informed : Readiness := ⟨true, true, false⟩

/-- Waits for news. Without any the wait has no end. -/
def await (r : Readiness) : Option Readiness := if r.news then some informed else none

/-- How often a socket can still be found readable as long as nothing happens to it. -/
def remaining (r : Readiness) : Nat := 2 * r.news.toNat + r.readable.toNat

end Readiness

end Host

open Host

/-- The other side of a socket's system calls. -/
structure Host where
  /-- The port that the socket is bound to. -/
  port : UInt32 := 0
  /-- How a call fails while the socket is set up, if it does, given the calls made before. -/
  setupFault : List Call → Setup → Option Nat := fun _ _ => none
  /-- How the next sends go. -/
  sendFaults : Faults := []
  queue : List Waiting := []
  /-- The calls that were made, in order. -/
  calls : List Call := []
  readiness : Readiness := {}

namespace Host

def record (s : Host) (c : Call) : Host := { s with calls := s.calls ++ [c] }

/-- A call failed with this number. If it would have had to wait, the socket becomes ready again at
once, and that is news. -/
def stirred (n : Nat) (s : Host) : Host :=
  { s with readiness.news := s.readiness.news || n == Errno.wouldBlock }

/-- The result of a call that can only succeed or fail. -/
def status (outcome : Except Nat Unit) : Int :=
  match outcome with
  | .ok () => 0
  | .error n => -n

def setupOutcome (s : Host) (c : Setup) : Except Nat Unit :=
  match s.setupFault s.calls c with
  | some n => .error n
  | none => .ok ()

def socket (protocol : Protocol) (s : Host) : Except Nat Unit × Host :=
  let outcome := s.setupOutcome .socket
  (outcome, s.record (.socket protocol.number (status outcome)))

def setOption (level name : Nat) (value : UInt32) (s : Host) : Except Nat Unit × Host :=
  let outcome := s.setupOutcome (.option level name)
  (outcome, s.record (.setOption level name value (status outcome)))

def bind (groups : UInt32) (s : Host) : Except Nat Unit × Host :=
  let outcome := s.setupOutcome .bind
  (outcome, s.record (.bind netlinkFamily 0 groups (status outcome)))

/-- The port that the socket is bound to. -/
def address (s : Host) : Except Nat UInt32 × Host :=
  let outcome := s.setupOutcome .address
  (outcome.map fun () => s.port, s.record (.address (status outcome)))

def send (pieces : List Bytes) (s : Host) : Except Nat Unit × Host :=
  let size : Int := pieces.flatten.length
  let call (result : Int) : Call := .send pieces netlinkFamily 0 0 result
  let later := { s with sendFaults := s.sendFaults.tail }
  match s.sendFaults.next? with
  | some n => (.error n, (later.stirred n).record (call (-n)))
  | none => (.ok (), later.record (call size))

def isNoWait (flags : Nat) : Bool := flags &&& noWaitFlag != 0

/-- A call that looks at the first datagram, of which it sees something that comes down to a number,
and leaves it where it is. Without one, a call that may wait is told of nothing, which is the end of
the script; a socket that does not block would find that the call would have had to wait. -/
def look {α : Type} (wanted : Wanted) (room flags : Nat) (see : Option Waiting → α) (count : α → Nat)
    (s : Host) : Except Nat α × Host :=
  let refused (n : Nat) (s : Host) : Except Nat α × Host :=
    (.error n, s.record (.read room flags (-n)))
  let found (seen : α) (s : Host) : Except Nat α × Host :=
    (.ok seen, s.record (.read room flags (count seen)))
  match s.queue with
  | [] => if isNoWait flags then refused Errno.wouldBlock s else found (see none) s
  | w :: rest =>
    if w.silent then refused Errno.wouldBlock s
    else
      let later := { s with queue := w.spend wanted :: rest }
      match (w.faults wanted).next? with
      | some n => refused n (later.stirred n)
      | none => found (see (some w)) later

/-- Asks how large the first datagram is. -/
def size (flags : Nat) : Host → Except Nat Nat × Host :=
  look .size 0 flags (·.elim 0 Waiting.told) id

/-- Copies the first datagram, or as much of it as there is room for. -/
def copy (room flags : Nat) : Host → Except Nat Bytes × Host :=
  look .contents room flags (·.elim [] fun w => w.data.take room) List.length

/-- Control messages as they come in a buffer. The first that does not fit is cut off where the
buffer ends, and nothing follows it. One that would lose part of its header is left out. -/
def fitting (room : Nat) : List Control → List Control
  | [] => []
  | c :: cs =>
    if room < controlHeader then []
    else { c with data := c.data.take (room - controlHeader) } :: fitting (room - c.room) cs

/-- Takes the first datagram off the queue, or as much of it as there is room for. Without one it
brings nothing, which is the end of the script as it is for `look`. -/
def read (room : Nat) (s : Host) : Except Nat Received × Host :=
  let call (result : Int) : Call := .readMessage room controlRoom 0 result
  match s.queue with
  | [] => (.ok ⟨[], 0, [], false⟩, s.record (call 0))
  | w :: rest =>
    if w.silent then
      (.error Errno.wouldBlock, s.record (call (-Errno.wouldBlock)))
    else match (w.faults .contents).next? with
      | some n =>
        let s := { s with queue := w.spend .contents :: rest }
        (.error n, (s.stirred n).record (call (-n)))
      | none =>
        let data := w.data.take room
        let truncated := w.truncated || room < w.data.length
        (.ok ⟨data, w.sender, fitting controlRoom w.control, truncated⟩,
          { s with queue := rest }.record (call data.length))

def push (s : Host) (ws : List Waiting) : Host := { s with queue := s.queue ++ ws }

def forget (s : Host) : Host := { s with calls := [] }

/-! ## What is still to come -/

/-- How many calls a datagram answers at most before it is gone: one for itself and one for each
failure. -/
def Waiting.remaining (w : Waiting) : Nat := w.sizeFaults.length + w.readFaults.length + 1

/-- How many failures and datagrams are still to come. -/
def remaining (s : Host) : Nat :=
  s.sendFaults.length + s.queue.foldr (fun w later => w.remaining + later) 0

/-- Nothing happened but that a call, which would have had to wait, was made in vain. -/
def Idle (n : Nat) (s s' : Host) : Prop :=
  n = Errno.wouldBlock ∧ s'.remaining = s.remaining ∧ s'.readiness = s.readiness

theorem remaining_of_send_error {pieces : List Bytes} {n : Nat} {s s' : Host}
    (h : s.send pieces = (.error n, s')) : s'.remaining < s.remaining := by
  unfold send at h
  dsimp only at h
  split at h
  · rename_i hf
    have hlt := Faults.length_tail_of_next? hf
    simp only [Prod.mk.injEq] at h
    rw [← h.2]
    simp only [remaining, record, stirred]
    omega
  · simp at h

theorem Waiting.remaining_spend {w : Waiting} {wanted : Wanted} {n : Nat}
    (h : (w.faults wanted).next? = some n) : (w.spend wanted).remaining < w.remaining := by
  have hlt := Faults.length_tail_of_next? h
  cases wanted <;> simp only [Waiting.remaining, Waiting.spend, Waiting.faults] at hlt ⊢ <;> omega

theorem Waiting.remaining_spend_le (w : Waiting) (wanted : Wanted) :
    (w.spend wanted).remaining ≤ w.remaining := by
  cases wanted <;> simp only [Waiting.remaining, Waiting.spend, List.length_tail] <;> omega

section Looking

variable {α : Type} {wanted : Wanted} {room flags n : Nat} {see : Option Waiting → α}
  {count : α → Nat} {s s' : Host}

/-- A look that fails uses a failure up, unless there is nothing to be read. -/
theorem remaining_of_look_error (h : s.look wanted room flags see count = (.error n, s')) :
    s'.remaining < s.remaining ∨ Idle n s s' := by
  unfold look at h
  dsimp only at h
  split at h
  · split at h
    · simp only [Prod.mk.injEq, Except.error.injEq] at h
      exact .inr ⟨h.1.symm, h.2 ▸ rfl, h.2 ▸ rfl⟩
    · simp at h
  · split at h
    · simp only [Prod.mk.injEq, Except.error.injEq] at h
      exact .inr ⟨h.1.symm, h.2 ▸ rfl, h.2 ▸ rfl⟩
    · rename_i hq _
      split at h
      · rename_i hf
        have hlt := Waiting.remaining_spend hf
        simp only [Prod.mk.injEq] at h
        rw [← h.2]
        left
        simp only [remaining, record, stirred, hq, List.foldr_cons]
        omega
      · simp at h

/-- A look that succeeds leaves the datagram where it is and the readiness as it is. -/
theorem remaining_of_look_ok {a : α} (h : s.look wanted room flags see count = (.ok a, s')) :
    s'.remaining ≤ s.remaining ∧ s'.readiness = s.readiness := by
  unfold look at h
  dsimp only at h
  split at h
  · split at h
    · simp at h
    · simp only [Prod.mk.injEq] at h
      rw [← h.2]
      exact ⟨Nat.le_refl _, rfl⟩
  · split at h
    · simp at h
    · rename_i w rest hq _
      split at h
      · simp at h
      · have hle := w.remaining_spend_le wanted
        simp only [Prod.mk.injEq] at h
        rw [← h.2]
        refine ⟨?_, rfl⟩
        simp only [remaining, record, hq, List.foldr_cons]
        omega

end Looking

/-- A read that fails uses a failure up, unless there is nothing to be read. -/
theorem remaining_of_read_error {room n : Nat} {s s' : Host} (h : s.read room = (.error n, s')) :
    s'.remaining < s.remaining ∨ Idle n s s' := by
  unfold read at h
  dsimp only at h
  split at h
  · simp at h
  · split at h
    · simp only [Prod.mk.injEq, Except.error.injEq] at h
      exact .inr ⟨h.1.symm, h.2 ▸ rfl, h.2 ▸ rfl⟩
    · rename_i hq _
      split at h
      · rename_i hf
        have hlt := Waiting.remaining_spend hf
        simp only [Prod.mk.injEq] at h
        rw [← h.2]
        left
        simp only [remaining, record, stirred, hq, List.foldr_cons]
        omega
      · simp at h

/-- A read takes a datagram off the queue, unless there is none. -/
theorem remaining_of_read_ok {room : Nat} {s s' : Host} {r : Received}
    (h : s.read room = (.ok r, s')) (hr : r.data ≠ []) : s'.remaining < s.remaining := by
  unfold read at h
  dsimp only at h
  split at h
  · simp only [Prod.mk.injEq, Except.ok.injEq] at h
    rw [← h.1] at hr
    exact absurd rfl hr
  · split at h
    · simp at h
    · rename_i hq _
      split at h
      · simp at h
      · simp only [Prod.mk.injEq] at h
        rw [← h.2]
        simp only [remaining, record, hq, List.foldr_cons, Waiting.remaining]
        omega

end Host
end Netlink
