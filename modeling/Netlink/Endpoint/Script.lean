import Netlink.Conversation.Transport

/-! # A scripted endpoint

An endpoint whose other side follows a script: what arrives, when, and what each send brings about.
It stands in for a socket wherever a conversation is to be followed step by step. -/

namespace Netlink

namespace Script

inductive Outcome where
  | datagram (d : Datagram)
  /-- The system call fails with this number. -/
  | fault (number : Int)
  | endOfFile
  /-- Nothing ever arrives. -/
  | silence
  deriving DecidableEq, Repr

/-- What arrives, and after how many milliseconds of waiting. -/
structure Arrival where
  outcome : Outcome
  delay : Nat := 0
  deriving DecidableEq, Repr

inductive Reaction where
  /-- The send fails with this number, and nothing is sent. -/
  | fault (number : Int)
  /-- These arrive behind what is already waiting. -/
  | arrivals (as : List Arrival)
  deriving DecidableEq, Repr

end Script

/-- An endpoint that follows a script. -/
structure Script where
  protocol : Protocol := .route
  port : UInt32 := 0
  queue : List Script.Arrival := []
  /-- What the next sends bring about, in order; further ones bring about nothing. -/
  reactions : List Script.Reaction := []
  /-- The datagrams that were sent, in order. -/
  sent : List Bytes := []
  closed : Bool := false
  deriving Repr

namespace Script

/-- What is waiting arrives within the time that is left. Something that does not need waiting for
arrives even when there is no time. -/
def inTime (patience : Option Nat) (delay : Nat) : Bool := patience.all (delay ≤ ·)

def send (pieces : List Bytes) (s : Script) : Except Error Unit × Script :=
  if s.closed then (.error .closed, s)
  else match s.reactions with
    | .fault number :: rest => (.error (.io (.os number)), { s with reactions := rest })
    | .arrivals as :: rest =>
      (.ok (), { s with reactions := rest, queue := s.queue ++ as, sent := s.sent ++ [pieces.flatten] })
    | [] => (.ok (), { s with sent := s.sent ++ [pieces.flatten] })

/-- Takes the first arrival off the queue. One that does not arrive in time is lost, and a wait that
nothing ends counts as one that took too long. -/
def receive (patience : Option Nat) (s : Script) : Except Error Datagram × Script :=
  if s.closed then (.error .closed, s)
  else match s.queue with
    | [] => (.error .endOfFile, s)
    | a :: rest =>
      let s := { s with queue := rest }
      if inTime patience a.delay then
        match a.outcome with
        | .datagram d => (.ok d, s)
        | .fault number => (.error (.io (.os number)), s)
        | .endOfFile => (.error .endOfFile, s)
        | .silence => (.error .timedOut, s)
      else (.error .timedOut, s)

def peek (s : Script) : Except Error (Option Bytes) × Script :=
  if s.closed then (.error .closed, s)
  else match s.queue.map Arrival.outcome with
    | .datagram d :: _ => (.ok (some d.data), s)
    | .fault number :: _ => (.error (.io (.os number)), s)
    | _ => (.ok none, s)

def push (s : Script) (as : List Arrival) : Script := { s with queue := s.queue ++ as }

def pushReactions (s : Script) (rs : List Reaction) : Script :=
  { s with reactions := s.reactions ++ rs }

theorem length_queue_of_receive {patience : Option Nat} {s s' : Script}
    {r : Except Error Datagram} (h : s.receive patience = (r, s')) :
    s'.queue.length < s.queue.length ∨ r = .error .closed ∨ r = .error .endOfFile := by
  unfold receive at h
  split at h
  · simp only [Prod.mk.injEq] at h
    exact .inr (.inl h.1.symm)
  · split at h
    · simp only [Prod.mk.injEq] at h
      exact .inr (.inr h.1.symm)
    · rename_i a rest hq
      left
      have hs : s' = { s with queue := rest } := by
        dsimp only at h
        split at h
        · split at h <;> exact (congrArg Prod.snd h).symm
        · exact (congrArg Prod.snd h).symm
      rw [hs, hq]
      simp

instance : Transport Script where
  protocol := Script.protocol
  port := Script.port
  send := send
  receive := receive
  peek := peek
  close s := ({ s with closed := true }, [])
  pending s := s.queue.length
  pending_of_datagram h := by
    rcases length_queue_of_receive h with h | h | h
    · exact h
    · contradiction
    · contradiction
  pending_of_fault h := by
    rcases length_queue_of_receive h with h | h | h
    · exact h
    · simp at h
    · simp at h

end Script
end Netlink
