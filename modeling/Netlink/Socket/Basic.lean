import Netlink.Conversation.State
import Netlink.Socket.Host

/-! # Netlink sockets

A socket is opened by a fixed sequence of calls, and the first of those that are required to succeed
and does not ends it. A call that is interrupted is made again. A receive first asks how large the
next datagram is and then reads it into a buffer of that size; when one of the two finds nothing
after all, the receive waits until the socket is readable and begins again with the size. A socket
is not known to be ready before it has been waited for, so the first receive has to wait, and with
no time to do so it fails. -/

namespace Netlink

/-- A socket, on the host that answers its calls. -/
structure Socket where
  host : Host
  protocol : Protocol
  /-- The port that the socket is bound to. -/
  port : UInt32
  isOpen : Bool

namespace Socket

open Host

/-! ## Opening -/

/-- Calls that may fail. What they did to the host stays. -/
abbrev Calls (α : Type) := ExceptT Error (StateM Host) α

/-- A call failed with this number. -/
def refused (n : Nat) : Error := .io (.os n)

def required {α : Type} (call : Host → Except Nat α × Host) : Calls α := fun h =>
  let (outcome, h) := call h
  (outcome.mapError refused, h)

def optional {α : Type} (call : Host → Except Nat α × Host) : Calls Unit := fun h =>
  (.ok (), (call h).2)

def maxSize : Nat := 2147483647

/-- Sets the size of a buffer; a size past the greatest value is refused without a call. -/
def setBuffer (name size : Nat) : Calls Unit :=
  if maxSize < size then throw (.io .invalidInput)
  else required (Host.setOption socketLevel name (UInt32.ofNat size))

def join (group : UInt32) : Calls Unit :=
  required (Host.setOption netlinkLevel addMembershipOption group)

def leave (group : UInt32) : Calls Unit :=
  required (Host.setOption netlinkLevel dropMembershipOption group)

/-- The calls that open a socket; the result is the port that it is bound to. -/
def setUp (protocol : Protocol) (config : Config) : Calls UInt32 := do
  required (Host.socket protocol)
  setBuffer sendBufferOption config.sendBuffer
  setBuffer receiveBufferOption config.receiveBuffer
  if config.extendedAcks then
    optional (Host.setOption netlinkLevel extendedAckOption 1)
  required (Host.bind config.groups)
  let port ← required Host.address
  config.memberships.forM join
  if config.allNamespaces then
    required (Host.setOption netlinkLevel allNamespacesOption 1)
  return port

def connect (protocol : Protocol) (config : Config) (host : Host) : Except Error Socket × Host :=
  match setUp protocol config host with
  | (.ok port, host) => (.ok ⟨host, protocol, port, true⟩, host)
  | (.error e, host) => (.error e, host)

def openingReport (s : Socket) (config : Config) : List Event :=
  [.opened s.protocol s.port config.groups]

/-! ## Calls made again -/

/-- A call that is made again when it fails in certain ways, each of which uses something up. -/
structure Retried (α : Type) where
  call : Host → Except Nat α × Host
  /-- A failure with this number is no reason to give up. -/
  excuses : Nat → Bool
  uses {h h' : Host} {n : Nat} :
    excuses n → call h = (.error n, h') → h'.remaining < h.remaining

/-- Makes a call until it succeeds or fails in a way that is not excused. -/
def Retried.run {α : Type} (r : Retried α) (h : Host) : Except Nat α × Host :=
  match _h : r.call h with
  | (.ok a, h') => (.ok a, h')
  | (.error n, h') => if _hn : r.excuses n then r.run h' else (.error n, h')
termination_by h.remaining
decreasing_by exact r.uses _hn _h

/-- The outcome is that of one call, made on the host as it was or on one with less to come. -/
theorem Retried.exists_call {α : Type} (r : Retried α) (h : Host) :
    ∃ h₁, r.run h = r.call h₁ ∧ (h₁ = h ∨ h₁.remaining < h.remaining) := by
  fun_induction Retried.run r h with
  | case1 h a h' hc => exact ⟨h, hc.symm, .inl rfl⟩
  | case2 h n h' hc hn ih =>
    obtain ⟨h₁, heq, hle⟩ := ih
    have := r.uses hn hc
    refine ⟨h₁, heq, .inr ?_⟩
    rcases hle with rfl | hlt
    · exact this
    · exact Nat.lt_trans hlt this
  | case3 h n h' hc _ => exact ⟨h, hc.symm, .inl rfl⟩

def interrupted (n : Nat) : Bool := n = Errno.interrupted

/-- An interrupted call has used something up. -/
theorem remaining_of_interrupted {n : Nat} {h h' : Host} (hn : interrupted n)
    (hu : h'.remaining < h.remaining ∨ Idle n h h') : h'.remaining < h.remaining := by
  rcases hu with hu | hu
  · exact hu
  · rw [hu.1] at hn
    exact absurd hn (by decide)

def sending (pieces : List Bytes) : Retried Unit where
  call := Host.send pieces
  excuses := interrupted
  uses _ h := Host.remaining_of_send_error h

def sizing (flags : Nat) : Retried Nat where
  call := Host.size flags
  excuses := interrupted
  uses hn h := remaining_of_interrupted hn (Host.remaining_of_look_error h)

def copying (room flags : Nat) : Retried Bytes where
  call := Host.copy room flags
  excuses := interrupted
  uses hn h := remaining_of_interrupted hn (Host.remaining_of_look_error h)

def reading (room : Nat) : Retried Received where
  call := Host.read room
  excuses := interrupted
  uses hn h := remaining_of_interrupted hn (Host.remaining_of_read_error h)

/-! ## Sending -/

/-- Waits until the socket is writable. A socket that is not known to be always has news. -/
def whenWritable (h : Host) : Host :=
  if h.readiness.writable then h else { h with readiness := .informed }

theorem remaining_whenWritable (h : Host) : (whenWritable h).remaining = h.remaining := by
  unfold whenWritable
  split <;> rfl

/-- Waits until the socket is writable and sends, again and again for as long as the send would have
had to wait after all. -/
def sendRaw (pieces : List Bytes) (h : Host) : Except Error Unit × Host :=
  match _h : (sending pieces).run (whenWritable h) with
  | (.ok (), h') => (.ok (), h')
  | (.error n, h') =>
    if n = Errno.wouldBlock then sendRaw pieces { h' with readiness.writable := false }
    else (.error (refused n), h')
termination_by h.remaining
decreasing_by
  obtain ⟨h₁, heq, hle⟩ := (sending pieces).exists_call (whenWritable h)
  have hlt := Host.remaining_of_send_error (heq.symm.trans _h)
  have := remaining_whenWritable h
  change h'.remaining < h.remaining
  rcases hle with rfl | hle <;> omega

/-! ## Receiving -/

/-- Asks for the size of the next datagram, and reads it into a buffer of that size. -/
def attempt (h : Host) : Except Nat Received × Host :=
  match (sizing (peekFlag ||| sizeFlag)).run h with
  | (.error n, h) => (.error n, h)
  | (.ok size, h) => (reading size).run h

theorem remaining_of_attempt_error {h h' : Host} {n : Nat} (ha : attempt h = (.error n, h')) :
    h'.remaining < h.remaining ∨ Idle n h h' := by
  unfold attempt at ha
  obtain ⟨h₁, heq, hle⟩ := (sizing (peekFlag ||| sizeFlag)).exists_call h
  split at ha
  · rename_i hsize
    simp only [Prod.mk.injEq, Except.error.injEq] at ha
    rw [ha.1, ha.2, heq] at hsize
    have hlook : h₁.size (peekFlag ||| sizeFlag) = (.error n, h') := hsize
    rcases Host.remaining_of_look_error hlook with hlt | hidle
    · rcases hle with rfl | hle <;> omega
    · rcases hle with rfl | hle
      · exact .inr hidle
      · exact .inl (hidle.2.1 ▸ hle)
  · rename_i size h₂ hsize
    have hlook : h₁.size (peekFlag ||| sizeFlag) = (.ok size, h₂) := heq.symm.trans hsize
    obtain ⟨hkept, hsame⟩ := Host.remaining_of_look_ok hlook
    obtain ⟨h₃, heq₃, hle₃⟩ := (reading size).exists_call h₂
    have hafter : h₃ = h₂ ∨ h₃.remaining < h.remaining := by
      rcases hle₃ with rfl | hle₃
      · exact .inl rfl
      · rcases hle with rfl | hle <;> exact .inr (by omega)
    have hbefore : h₂.remaining ≤ h.remaining := by rcases hle with rfl | hle <;> omega
    rcases Host.remaining_of_read_error (heq₃.symm.trans ha) with hlt | ⟨hn, hrem, hready⟩
    · left
      rcases hafter with rfl | hafter <;> omega
    · rcases hafter with rfl | hafter
      · rcases hle with rfl | hle
        · rcases Nat.lt_or_eq_of_le hbefore with hless | hequal
          · left; omega
          · exact .inr ⟨hn, hrem.trans hequal, hready.trans hsame⟩
        · left; omega
      · left; omega

theorem remaining_of_attempt_ok {h h' : Host} {r : Received} (ha : attempt h = (.ok r, h'))
    (hr : r.data ≠ []) : h'.remaining < h.remaining := by
  unfold attempt at ha
  obtain ⟨h₁, heq, hle⟩ := (sizing (peekFlag ||| sizeFlag)).exists_call h
  split at ha
  · simp at ha
  · rename_i size h₂ hsize
    have hlook : h₁.size (peekFlag ||| sizeFlag) = (.ok size, h₂) := heq.symm.trans hsize
    obtain ⟨hkept, -⟩ := Host.remaining_of_look_ok hlook
    obtain ⟨h₃, heq₃, hle₃⟩ := (reading size).exists_call h₂
    have hlt := Host.remaining_of_read_ok (heq₃.symm.trans ha) hr
    rcases hle₃ with rfl | hle₃ <;> rcases hle with rfl | hle <;> omega

/-- Waits until the socket is readable, if there is any time for that. -/
def whenReadable (patience : Option Nat) (h : Host) : Option Host :=
  if h.readiness.readable then some h
  else if patience = some 0 then none
  else h.readiness.await.map fun known => { h with readiness := known }

theorem remaining_of_whenReadable {patience : Option Nat} {h h' : Host}
    (hw : whenReadable patience h = some h') : h'.remaining = h.remaining := by
  unfold whenReadable at hw
  split at hw
  · rw [Option.some.inj hw]
  · split at hw
    · simp at hw
    · obtain ⟨known, _, rfl⟩ := Option.map_eq_some_iff.1 hw
      rfl

/-- When a socket that was found readable turns out not to be, it cannot be found so as often. -/
theorem readiness_of_whenReadable {patience : Option Nat} {h h' : Host}
    (hw : whenReadable patience h = some h') :
    { h'.readiness with readable := false }.remaining < h.readiness.remaining := by
  unfold whenReadable at hw
  split at hw
  · rename_i hr
    rw [← Option.some.inj hw]
    simp [Readiness.remaining, hr]
  · split at hw
    · simp at hw
    · obtain ⟨known, ha, rfl⟩ := Option.map_eq_some_iff.1 hw
      unfold Readiness.await at ha
      split at ha
      · rename_i hn
        rw [← Option.some.inj ha]
        simp only [Readiness.remaining, Readiness.informed, hn, Bool.toNat_true, Bool.toNat_false]
        omega
      · simp at ha

/-- Waits until the socket is readable and receives, again and again for as long as there is nothing
to be read after all. A wait that has no end, or no time, takes too long. -/
def receiveRaw (patience : Option Nat) (h : Host) : Except Error Received × Host :=
  match _hw : whenReadable patience h with
  | none => (.error .timedOut, h)
  | some h₁ =>
    match _ha : attempt h₁ with
    | (.ok r, h₂) => (.ok r, h₂)
    | (.error n, h₂) =>
      if n = Errno.wouldBlock then receiveRaw patience { h₂ with readiness.readable := false }
      else (.error (refused n), h₂)
termination_by (h.remaining, h.readiness.remaining)
decreasing_by
  have hrem := remaining_of_whenReadable _hw
  have hready := readiness_of_whenReadable _hw
  rcases remaining_of_attempt_error _ha with hlt | ⟨_, heq, hsame⟩
  · exact Prod.Lex.left _ _ (hrem ▸ hlt)
  · refine Prod.Lex.right' _ (Nat.le_of_eq (heq.trans hrem)) ?_
    simpa [hsame] using hready

theorem remaining_of_receiveRaw_fault {patience : Option Nat} {h h' : Host} {f : IoFault}
    (hr : receiveRaw patience h = (.error (.io f), h')) : h'.remaining < h.remaining := by
  fun_induction receiveRaw patience h with
  | case1 => simp at hr
  | case2 => simp at hr
  | case3 h h₁ hw h₂ ha ih =>
    have hlt : h'.remaining < h₂.remaining := ih hr
    have hrem := remaining_of_whenReadable hw
    rcases remaining_of_attempt_error ha with hlt₂ | ⟨_, heq, _⟩ <;> omega
  | case4 h h₁ hw n h₂ ha hn =>
    simp only [Prod.mk.injEq] at hr
    have hrem := remaining_of_whenReadable hw
    rw [← hr.2]
    rcases remaining_of_attempt_error ha with hlt | hidle
    · omega
    · exact absurd hidle.1 hn

theorem remaining_of_receiveRaw_ok {patience : Option Nat} {h h' : Host} {r : Received}
    (hr : receiveRaw patience h = (.ok r, h')) (hd : r.data ≠ []) :
    h'.remaining < h.remaining := by
  fun_induction receiveRaw patience h with
  | case1 => simp at hr
  | case2 h h₁ hw r₁ h₂ ha =>
    simp only [Prod.mk.injEq, Except.ok.injEq] at hr
    have hrem := remaining_of_whenReadable hw
    rw [hr.1, hr.2] at ha
    have := remaining_of_attempt_ok ha hd
    omega
  | case3 h h₁ hw h₂ ha ih =>
    have hlt : h'.remaining < h₂.remaining := ih hr
    have hrem := remaining_of_whenReadable hw
    rcases remaining_of_attempt_error ha with hlt₂ | ⟨_, heq, _⟩ <;> omega
  | case4 => simp at hr

/-- The number of a network namespace in four bytes, in two's complement. -/
def namespaceOf (c : Control) : Option Int32 :=
  if c.level = netlinkLevel ∧ c.type = allNamespacesOption then
    (Wire.split? 4 c.data).map fun (front, _) => (Wire.word32 front).toInt32
  else none

/-- The network namespace that the kernel names, the last time it names one. -/
def lastNamespace (cs : List Control) : Option Int32 := (cs.filterMap namespaceOf).getLast?

/-! ## The operations of a socket -/

def send (pieces : List Bytes) (s : Socket) : Except Error Unit × Socket :=
  if s.isOpen then
    let (outcome, host) := sendRaw pieces s.host
    (outcome, { s with host })
  else (.error .closed, s)

/-- Receives the next datagram. One without contents means that the other side is gone. -/
def receive (patience : Option Nat) (s : Socket) : Except Error Datagram × Socket :=
  if s.isOpen then
    match receiveRaw patience s.host with
    | (.error e, host) => (.error e, { s with host })
    | (.ok r, host) =>
      if r.data.isEmpty then (.error .endOfFile, { s with host })
      else (.ok ⟨r.data, r.sender, r.truncated, lastNamespace r.control⟩, { s with host })
  else (.error .closed, s)

/-- Looks at the next datagram, without waiting for one. -/
def peek (s : Socket) : Except Error (Option Bytes) × Socket :=
  if s.isOpen then
    let settle (n : Nat) (host : Host) : Except Error (Option Bytes) × Socket :=
      (if n = Errno.wouldBlock then .ok none else .error (refused n), { s with host })
    match (sizing (noWaitFlag ||| peekFlag ||| sizeFlag)).run s.host with
    | (.error n, host) => settle n host
    | (.ok size, host) =>
      match (copying size (peekFlag ||| noWaitFlag)).run host with
      | (.error n, host) => settle n host
      | (.ok data, host) => (.ok (some data), { s with host })
  else (.error .closed, s)

/-- Closes the socket; doing so again changes nothing and is not reported. -/
def close (s : Socket) : Socket × List Event :=
  if s.isOpen then ({ s with isOpen := false }, [.closed s.port]) else (s, [])

/-- Makes calls of the setup on an open socket. -/
def onHost (s : Socket) (calls : Calls Unit) : Except Error Unit × Socket :=
  if s.isOpen then
    let (outcome, host) := calls s.host
    (outcome, { s with host })
  else (.error .closed, s)

def addMembership (group : UInt32) (s : Socket) : Except Error Unit × Socket :=
  s.onHost (join group)

def dropMembership (group : UInt32) (s : Socket) : Except Error Unit × Socket :=
  s.onHost (leave group)

instance : Transport Socket where
  protocol := Socket.protocol
  port := Socket.port
  send := send
  receive := receive
  peek := peek
  close := close
  pending s := s.host.remaining
  pending_of_datagram h := by
    unfold receive at h
    split at h
    · split at h
      · simp at h
      · rename_i hr
        split at h
        · simp at h
        · rename_i hd
          simp only [Prod.mk.injEq] at h
          rw [← h.2]
          exact remaining_of_receiveRaw_ok hr (by simpa using hd)
    · simp at h
  pending_of_fault h := by
    unfold receive at h
    split at h
    · split at h
      · rename_i hr
        simp only [Prod.mk.injEq, Except.error.injEq] at h
        rw [← h.2]
        exact remaining_of_receiveRaw_fault (h.1 ▸ hr)
      · split at h <;> simp at h
    · simp at h

end Socket

/-- Opens a socket on a host and begins a conversation over it, at a time in seconds. -/
def Connection.connect (protocol : Protocol) (config : Config) (seconds : Int) (host : Host) :
    Except Error (Connection Socket) × Host :=
  match Socket.connect protocol config host with
  | (.error e, host) => (.error e, host)
  | (.ok socket, host) =>
    let c := Connection.start socket config seconds
    (.ok { c with state := c.state.report (socket.openingReport config) }, host)

end Netlink
