import Netlink.Conversation.State
import Netlink.Proofs.Message.Packets

/-! # What an endpoint brings

An endpoint is asked for one datagram after another until it fails, so to a reader that does not
survive a failure it is no more than a list of datagrams and the failure behind them. Draining it is
a fold over that list: what the reader makes of a datagram depends on the datagrams before, not on
how they were waited for. -/

namespace Netlink

/-- The datagrams that an endpoint brings to someone who waits for each of them no longer than
`patience`, and the failure that ends them. -/
def Transport.arrivals {σ : Type} [Transport σ] (patience : Option Nat) (s : σ) :
    List Datagram × Error :=
  match _h : Transport.receive patience s with
  | (.ok d, s') =>
    let later := arrivals patience s'
    (d :: later.1, later.2)
  | (.error e, _) => ([], e)
termination_by Transport.pending s
decreasing_by exact Transport.pending_of_datagram _h

namespace Transport

variable {σ : Type} [Transport σ] {patience : Option Nat} {s s' : σ}

theorem arrivals_of_ok {d : Datagram} (h : receive patience s = (.ok d, s')) :
    arrivals patience s = (d :: (arrivals patience s').1, (arrivals patience s').2) := by
  rw [arrivals]
  split
  · rename_i h'
    rw [h, Prod.mk.injEq, Except.ok.injEq] at h'
    rw [h'.1, h'.2]
  · simp_all

theorem arrivals_of_error {e : Error} (h : receive patience s = (.error e, s')) :
    arrivals patience s = ([], e) := by
  rw [arrivals]
  split
  · simp_all
  · rename_i h'
    rw [h, Prod.mk.injEq, Except.error.injEq] at h'
    rw [h'.1]

end Transport

/-- Whole datagrams that are runs of packets, and the messages in them with their senders. How the
messages are cut into datagrams does not show in the list. -/
inductive Carries : List Datagram → List Message → Prop
  | nil : Carries [] []
  | cons {d : Datagram} {ds : List Datagram} {ms : List Message} (ps : List Packet)
      (whole : d.truncated = false) (run : d.data = Packet.records ps) (tail : Carries ds ms) :
      Carries (d :: ds) (ps.map (Packet.message d.sender) ++ ms)

/-! ## What a conversation is about -/

namespace Conversation

/-- A conversation without what was reported and kept on the way. -/
def bare (c : Conversation) : Conversation := { c with log := [], acks := [] }

theorem eq_of_bare {c c' : Conversation} (h : c'.bare = c.bare) :
    c'.protocol = c.protocol ∧ c'.port = c.port ∧ c'.config = c.config ∧
      c'.dumpSeq = c.dumpSeq ∧ c'.sink = c.sink := by
  simp only [bare, mk.injEq] at h
  exact ⟨h.1, h.2.1, h.2.2.1, h.2.2.2.2.1, h.2.2.2.2.2.2.1⟩

/-- A conversation without what was reported, kept and recorded on the way: what no reader
changes. -/
def settled (c : Conversation) : Conversation := { c with log := [], acks := [], sink := none }

theorem settled_of_bare {c c' : Conversation} (h : c'.bare = c.bare) : c'.settled = c.settled :=
  congrArg (fun c : Conversation => { c with sink := none }) h

theorem settled_record (c : Conversation) (data : Bytes) :
    (c.record data).2.settled = c.settled := by
  unfold record
  split <;> rfl

theorem eq_of_settled {c c' : Conversation} (h : c'.settled = c.settled) :
    c'.protocol = c.protocol ∧ c'.port = c.port ∧ c'.config = c.config ∧ c'.seq = c.seq ∧
      c'.dumpSeq = c.dumpSeq ∧ c'.handler = c.handler := by
  simp only [settled, mk.injEq] at h
  exact ⟨h.1, h.2.1, h.2.2.1, h.2.2.2.1, h.2.2.2.2.1, h.2.2.2.2.2.1⟩

theorem bare_record {c c' : Conversation} (h : c'.bare = c.bare) (data : Bytes) :
    (c'.record data).1 = (c.record data).1 ∧
      (c'.record data).2.bare = (c.record data).2.bare := by
  obtain ⟨-, -, -, -, hsink⟩ := eq_of_bare h
  unfold record
  rw [hsink]
  cases c.sink with
  | none => exact ⟨rfl, h⟩
  | some sink =>
    let written := (sink.write data).2
    exact ⟨rfl, congrArg (fun c : Conversation => { c with sink := some written }) h⟩

/-- Recording changes nothing that a dump looks at. -/
theorem eq_of_record {c c' : Conversation} {data : Bytes} {result : Except Error Unit}
    (h : c.record data = (result, c')) :
    c'.protocol = c.protocol ∧ c'.port = c.port ∧ c'.dumpSeq = c.dumpSeq := by
  have hsettled := settled_record c data
  rw [h] at hsettled
  obtain ⟨hprotocol, hport, -, -, hnumber, -⟩ := eq_of_settled hsettled
  exact ⟨hprotocol, hport, hnumber⟩

/-- The conversation when a datagram has been received. -/
def heard (c : Conversation) (d : Datagram) : Conversation :=
  c.report [.received d.data.length d.sender d.truncated]

end Conversation

/-! ## Draining -/

/-- The conversation when a reader has made something of a datagram. -/
def Verdict.state {β α : Type} : Verdict β α → Conversation
  | .more c _ | .finished c _ _ => c

namespace Reader

variable {β α : Type}

/-- Hands datagrams to a reader until it has finished; behind the last of them stands a failure. -/
def fold (r : Reader β α) (e : Error) : List Datagram → Conversation → β → Except Error α × β
  | [], _, memory => (.error e, memory)
  | d :: ds, c, memory =>
    match r.step d (c.report [.received d.data.length d.sender d.truncated]) memory with
    | .more c memory => r.fold e ds c memory
    | .finished _ memory result => (result, memory)

theorem fold_of_more {r : Reader β α} {e : Error} {d : Datagram} {ds : List Datagram}
    {c c' : Conversation} {memory memory' : β}
    (h : r.step d (c.heard d) memory = .more c' memory') :
    r.fold e (d :: ds) c memory = r.fold e ds c' memory' := by
  rw [Conversation.heard] at h
  rw [fold, h]

theorem fold_of_finished {r : Reader β α} {e : Error} {d : Datagram} {ds : List Datagram}
    {c c' : Conversation} {memory memory' : β} {result : Except Error α}
    (h : r.step d (c.heard d) memory = .finished c' memory' result) :
    r.fold e (d :: ds) c memory = (result, memory') := by
  rw [Conversation.heard] at h
  rw [fold, h]

/-- The reader leaves the settings of the conversation alone. -/
def Steady (r : Reader β α) : Prop :=
  ∀ d c memory c' memory', r.step d c memory = .more c' memory' → c'.config = c.config

end Reader

/-- What a reader makes of a datagram, with its memory changed. -/
def Verdict.map {γ β α : Type} (f : γ → β) : Verdict γ α → Verdict β α
  | .more c memory => .more c (f memory)
  | .finished c memory result => .finished c (f memory) result

namespace Connection

variable {σ β α : Type} [Transport σ] {r : Reader β α} {c : Connection σ} {s : σ} {memory : β}

theorem drain_of_more {d : Datagram} {c' : Conversation} {memory' : β}
    (h : Transport.receive c.state.config.timeout c.endpoint = (.ok d, s))
    (hstep : r.step d (c.state.heard d) memory = .more c' memory') :
    c.drain r memory = drain r ⟨s, c'⟩ memory' := by
  rw [drain]
  split
  · rename_i h'
    rw [h, Prod.mk.injEq, Except.ok.injEq] at h'
    obtain ⟨rfl, rfl⟩ := h'
    change (match r.step d (c.state.heard d) memory with
      | .more state memory => drain r ⟨s, state⟩ memory
      | .finished state memory result => ((result, memory), ⟨s, state⟩)) = _
    rw [hstep]
  · simp_all
  · simp_all

theorem drain_of_finished {d : Datagram} {c' : Conversation} {memory' : β} {result : Except Error α}
    (h : Transport.receive c.state.config.timeout c.endpoint = (.ok d, s))
    (hstep : r.step d (c.state.heard d) memory = .finished c' memory' result) :
    c.drain r memory = ((result, memory'), ⟨s, c'⟩) := by
  rw [drain]
  split
  · rename_i h'
    rw [h, Prod.mk.injEq, Except.ok.injEq] at h'
    obtain ⟨rfl, rfl⟩ := h'
    change (match r.step d (c.state.heard d) memory with
      | .more state memory => drain r ⟨s, state⟩ memory
      | .finished state memory result => ((result, memory), ⟨s, state⟩)) = _
    rw [hstep]
  · simp_all
  · simp_all

theorem drain_of_overrun {fault : IoFault}
    (h : Transport.receive c.state.config.timeout c.endpoint = (.error (.io fault), s))
    (hsurvives : (r.survivesOverrun && fault.isOverrun) = true) :
    c.drain r memory = drain r ⟨s, c.state.report [.overrun]⟩ memory := by
  rw [drain]
  split
  · simp_all
  · simp_all
  · simp_all

theorem drain_of_failed {e : Error}
    (h : Transport.receive c.state.config.timeout c.endpoint = (.error e, s))
    (hends : ∀ fault, e = .io fault → (r.survivesOverrun && fault.isOverrun) = false) :
    c.drain r memory = ((.error e, memory), ⟨s, c.state⟩) := by
  rw [drain]
  split
  · simp_all
  · simp_all
  · simp_all

/-- A reader that makes of each datagram what another makes of it, only with more to remember, makes
of an endpoint what the other makes of it. -/
theorem drain_map {γ : Type} {r' : Reader γ α} {f : γ → β}
    (hover : r'.survivesOverrun = r.survivesOverrun)
    (hstep : ∀ d c memory, (r'.step d c memory).map f = r.step d c (f memory)) (c : Connection σ)
    (memory : γ) :
    c.drain r (f memory) =
      (((c.drain r' memory).1.1, f (c.drain r' memory).1.2), (c.drain r' memory).2) := by
  fun_induction Connection.drain r' c memory with
  | case1 c memory d s hreceive state c' memory' hmore ih =>
    have hplain := hstep d state memory
    rw [hmore] at hplain
    rw [drain_of_more hreceive hplain.symm, ih]
  | case2 c memory d s hreceive state c' memory' result hfinished =>
    have hplain := hstep d state memory
    rw [hfinished] at hplain
    rw [drain_of_finished hreceive hplain.symm]
  | case3 c memory fault s hreceive hsurvives ih =>
    rw [hover] at hsurvives
    rw [drain_of_overrun hreceive hsurvives, ih]
  | case4 c memory fault s hreceive hdies =>
    rw [hover] at hdies
    refine drain_of_failed hreceive fun fault' hfault => ?_
    cases hfault
    exact Bool.eq_false_iff.mpr hdies
  | case5 c memory e s hother hreceive =>
    exact drain_of_failed hreceive fun fault hfault => absurd hfault (hother fault)

end Connection

/-- A reader that survives no failure makes of an endpoint what it makes of its arrivals. -/
theorem Connection.drain_eq_fold {σ β α : Type} [Transport σ] {r : Reader β α}
    (hover : r.survivesOverrun = false) (hsteady : r.Steady) (c : Connection σ) (memory : β) :
    (c.drain r memory).1 =
      let arrivals := Transport.arrivals c.state.config.timeout c.endpoint
      r.fold arrivals.2 arrivals.1 c.state memory := by
  fun_induction Connection.drain r c memory with
  | case1 c memory d endpoint hreceive state c' memory' hstep ih =>
    have hconfig : c'.config = c.state.config := hsteady d state memory c' memory' hstep
    rw [Transport.arrivals_of_ok hreceive, ih, hconfig]
    simp only [Reader.fold]
    rw [hstep]
  | case2 c memory d endpoint hreceive state c' memory' result hstep =>
    rw [Transport.arrivals_of_ok hreceive]
    simp only [Reader.fold]
    rw [hstep]
  | case3 c memory fault endpoint hreceive hsurvives ih =>
    rw [hover] at hsurvives
    contradiction
  | case4 c memory fault endpoint hreceive _ =>
    rw [Transport.arrivals_of_error hreceive]
    rfl
  | case5 c memory e endpoint _ hreceive =>
    rw [Transport.arrivals_of_error hreceive]
    rfl

/-! ## Runs -/

/-- A reader takes datagrams one after another and wants more after each of them. -/
inductive Reader.Takes {β α : Type} (r : Reader β α) :
    List Datagram → Conversation → β → Conversation → β → Prop
  | nil (c : Conversation) (memory : β) : Takes r [] c memory c memory
  | cons {d : Datagram} {ds : List Datagram} {c c₁ c' : Conversation} {memory memory₁ memory' : β}
      (step : r.step d (c.heard d) memory = .more c₁ memory₁)
      (later : Takes r ds c₁ memory₁ c' memory') : Takes r (d :: ds) c memory c' memory'

theorem eq_ok_of_isOk {ε : Type} {result : Except ε Unit} (h : result.isOk = true) :
    result = .ok () := by
  cases result with
  | error e => cases h
  | ok u => rfl

def failure? {ε α : Type} : Except ε α → Option ε
  | .error e => some e
  | .ok _ => none

theorem eq_error_of_failure? {ε α : Type} {result : Except ε α} {e : ε}
    (h : failure? result = some e) : result = .error e := by
  cases result with
  | error e' =>
    cases h
    rfl
  | ok a => cases h

/-- A reader takes all datagrams and fails as the endpoint does, or it takes them up to one, which it
finishes with. What it has not received is still there. -/
theorem Connection.drain_cases {σ β α : Type} [Transport σ] {r : Reader β α}
    (hover : r.survivesOverrun = false) (hsteady : r.Steady) (c : Connection σ) (memory : β) :
    let after := c.drain r memory
    let patience := c.state.config.timeout
    let arrivals := Transport.arrivals patience c.endpoint
    (r.Takes arrivals.1 c.state memory after.2.state after.1.2 ∧ after.1.1 = .error arrivals.2) ∨
      ∃ before last c₁ memory₁,
        arrivals.1 = before ++ last :: (Transport.arrivals patience after.2.endpoint).1 ∧
        r.Takes before c.state memory c₁ memory₁ ∧
        r.step last (c₁.heard last) memory₁ = .finished after.2.state after.1.2 after.1.1 := by
  intro after patience arrivals
  fun_induction Connection.drain r c memory with
  | case1 c memory d endpoint hreceive state c' memory' hstep ih =>
    have hconfig : c'.config = c.state.config := hsteady d state memory c' memory' hstep
    have harrivals : arrivals = _ := Transport.arrivals_of_ok hreceive
    dsimp only at ih
    rw [hconfig] at ih
    obtain ⟨htakes, hfailed⟩ | ⟨before, last, c₁, memory₁, hlater, htakes, hlast⟩ := ih
    · left
      rw [harrivals]
      exact ⟨.cons hstep htakes, hfailed⟩
    · right
      refine ⟨d :: before, last, c₁, memory₁, ?_, .cons hstep htakes, hlast⟩
      rw [harrivals, hlater]
      rfl
  | case2 c memory d endpoint hreceive state c' memory' result hstep =>
    right
    refine ⟨[], d, c.state, memory, ?_, .nil _ _, hstep⟩
    rw [show arrivals = _ from Transport.arrivals_of_ok hreceive]
    rfl
  | case3 c memory fault endpoint hreceive hsurvives ih =>
    rw [hover] at hsurvives
    contradiction
  | case4 c memory fault endpoint hreceive _ =>
    left
    rw [show arrivals = _ from Transport.arrivals_of_error hreceive]
    exact ⟨.nil _ _, rfl⟩
  | case5 c memory e endpoint _ hreceive =>
    left
    rw [show arrivals = _ from Transport.arrivals_of_error hreceive]
    exact ⟨.nil _ _, rfl⟩

/-- A reader that succeeds has taken the datagrams up to one, which it finished with. -/
theorem Connection.drain_ok {σ β α : Type} [Transport σ] {r : Reader β α}
    (hover : r.survivesOverrun = false) (hsteady : r.Steady) {c : Connection σ} {memory : β} {a : α}
    (hok : (c.drain r memory).1.1 = .ok a) :
    let after := c.drain r memory
    let patience := c.state.config.timeout
    ∃ before last c₁ memory₁,
      (Transport.arrivals patience c.endpoint).1 =
        before ++ last :: (Transport.arrivals patience after.2.endpoint).1 ∧
      r.Takes before c.state memory c₁ memory₁ ∧
      r.step last (c₁.heard last) memory₁ = .finished after.2.state after.1.2 (.ok a) := by
  intro after patience
  obtain ⟨-, hfailed⟩ | ⟨before, last, c₁, memory₁, harrivals, htakes, hlast⟩ :=
    c.drain_cases hover hsteady memory
  · rw [hok] at hfailed
    cases hfailed
  · rw [hok] at hlast
    exact ⟨before, last, c₁, memory₁, harrivals, htakes, hlast⟩

end Netlink
