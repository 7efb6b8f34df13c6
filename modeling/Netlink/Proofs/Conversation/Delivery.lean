import Netlink.Conversation.Listen
import Netlink.Proofs.Conversation.DumpPass

/-! # What a listener is handed

A listener is handed every message of every datagram, in order and with its namespace, up to its own
first failure or to the first datagram that something is wrong with. Overruns between the datagrams
show in the log only. -/

namespace Netlink

/-! ## Receiving beyond overruns -/

/-- What someone receives who goes on after an overrun. -/
inductive Receipt where
  | datagram (d : Datagram)
  | overrun
  deriving DecidableEq

def Receipt.datagram? : Receipt → Option Datagram
  | datagram d => some d
  | overrun => none

theorem Receipt.filterMap_datagram (d : Datagram) (rs : List Receipt) :
    (datagram d :: rs).filterMap datagram? = d :: rs.filterMap datagram? := rfl

namespace Transport

variable {σ : Type} [Transport σ]

/-- What is received by someone who waits each time no longer than `patience`, and the failure other
than an overrun that ends it. -/
def receipts (patience : Option Nat) (s : σ) : List Receipt × Error :=
  match _h : Transport.receive patience s with
  | (.ok d, s') =>
    let later := receipts patience s'
    (.datagram d :: later.1, later.2)
  | (.error (.io fault), s') =>
    if fault.isOverrun then
      let later := receipts patience s'
      (.overrun :: later.1, later.2)
    else ([], .io fault)
  | (.error e, _) => ([], e)
termination_by Transport.pending s
decreasing_by
  · exact Transport.pending_of_datagram _h
  · exact Transport.pending_of_fault _h

variable {patience : Option Nat} {s s' : σ}

theorem receipts_of_ok {d : Datagram} (h : receive patience s = (.ok d, s')) :
    receipts patience s = (.datagram d :: (receipts patience s').1, (receipts patience s').2) := by
  rw [receipts]
  split
  · rename_i h'
    rw [h, Prod.mk.injEq, Except.ok.injEq] at h'
    rw [h'.1, h'.2]
  · simp_all
  · simp_all

theorem receipts_of_overrun {fault : IoFault} (h : receive patience s = (.error (.io fault), s'))
    (hoverrun : fault.isOverrun = true) :
    receipts patience s = (.overrun :: (receipts patience s').1, (receipts patience s').2) := by
  rw [receipts]
  split <;> simp_all

theorem receipts_of_error {e : Error} (h : receive patience s = (.error e, s'))
    (hends : ∀ fault, e = .io fault → fault.isOverrun = false) :
    receipts patience s = ([], e) := by
  rw [receipts]
  split <;> simp_all

theorem receipts_ne_overrun (patience : Option Nat) (s : σ) :
    (receipts patience s).2 ≠ .io (.os Errno.noBufferSpace) := by
  fun_induction receipts patience s with
  | case1 _ _ _ _ _ ih => exact ih
  | case2 _ _ _ _ _ _ ih => exact ih
  | case3 s fault s' hreceive hdies =>
    intro hsame
    cases hsame
    exact hdies rfl
  | case4 s e s' hother hreceive =>
    exact hother _

end Transport

/-! ## Notices -/

/-- The messages of a datagram, each with the namespace that they come from. -/
def Datagram.notices (d : Datagram) : List (Int32 × Message) :=
  d.messages.map fun m => (d.namespaceId.getD Listener.unknownNamespace, m)

namespace Listener

variable {β : Type}

/-- Hands notices over in order, up to the first that is refused. -/
def hand (l : Listener β) : List (Int32 × Message) → β → Except Error Unit × β
  | [], memory => (.ok (), memory)
  | n :: ns, memory =>
    match (l n.1 n.2 memory).value with
    | (.error e, memory) => (.error e, memory)
    | (.ok (), memory) => l.hand ns memory

/-- The notices that are handed over: all of them, or those up to the first that is refused. -/
def handed (l : Listener β) : List (Int32 × Message) → β → List (Int32 × Message)
  | [], _ => []
  | n :: ns, memory =>
    match (l n.1 n.2 memory).value with
    | (.error _, _) => [n]
    | (.ok (), memory) => n :: l.handed ns memory

/-- The same listener, keeping beside its memory a list of the notices it was handed. -/
def traced (l : Listener β) : Listener (β × List (Int32 × Message)) := fun namespaceId m s =>
  let ⟨(result, memory), log⟩ := l namespaceId m s.1
  ⟨(result, (memory, s.2 ++ [(namespaceId, m)])), log⟩

theorem hand_traced (l : Listener β) (ns : List (Int32 × Message)) (memory : β)
    (calls : List (Int32 × Message)) :
    l.traced.hand ns (memory, calls) =
      ((l.hand ns memory).1, ((l.hand ns memory).2, calls ++ l.handed ns memory)) := by
  induction ns generalizing memory calls with
  | nil => simp [hand, handed]
  | cons n ns ih =>
    obtain ⟨⟨⟨result, memory'⟩, log⟩, h⟩ : ∃ x, l n.1 n.2 memory = x := ⟨_, rfl⟩
    have htraced : l.traced n.1 n.2 (memory, calls) = ⟨(result, (memory', calls ++ [n])), log⟩ := by
      simp only [traced, h]
    cases result with
    | error e => simp [hand, handed, h, htraced]
    | ok u => simp [hand, handed, h, htraced, ih]

theorem hand_append (l : Listener β) (ns later : List (Int32 × Message)) (memory : β) :
    l.hand (ns ++ later) memory =
      match l.hand ns memory with
      | (.ok (), memory) => l.hand later memory
      | stopped => stopped := by
  induction ns generalizing memory with
  | nil => rfl
  | cons n ns ih =>
    obtain ⟨⟨result, memory'⟩, h⟩ : ∃ x, (l n.1 n.2 memory).value = x := ⟨_, rfl⟩
    cases result with
    | error e => simp only [List.cons_append, hand, h]
    | ok u => simp only [List.cons_append, hand, h, ih]

/-! ## What stops a listener -/

/-- Something is wrong with the datagram that a listener cannot go on after. In a whole datagram
this is a record that is no message, or bytes left over; in one that lost its end, a record that
declares more than is left. -/
inductive Stops (d : Datagram) : Error → Prop
  | malformed {declared : Nat} (whole : d.truncated = false)
      (fault : (Frame.walk d.data).fault = some declared) :
      Stops d (.framing (.malformed declared (Frame.walk d.data).rest.length))
  | remnant (whole : d.truncated = false) (nofault : (Frame.walk d.data).fault = none)
      (left : (Frame.walk d.data).rest ≠ []) :
      Stops d (.framing (.remnant (Frame.walk d.data).rest.length))
  | cut {declared : Nat} (cut : d.truncated = true)
      (fault : (Frame.walk d.data).fault = some declared)
      (short : (Frame.walk d.data).rest.length < declared) :
      Stops d (.truncated declared (Frame.walk d.data).rest.length)

/-- What is left of a header after a datagram lost its end does not stop a listener. -/
theorem not_stops_of_short {d : Datagram} (hcut : d.truncated = true)
    (hshort : (Frame.walk d.data).rest.length < headerSize) (e : Error) : ¬ Stops d e := by
  intro hstops
  cases hstops with
  | malformed whole | remnant whole =>
    rw [hcut] at whole
    cases whole
  | cut _ fault _ =>
    have hheader := (Frame.declared_of_fault fault).1
    exact absurd hshort (Nat.not_lt.mpr hheader)

/-- The record that ends the walk over the datagram does not declare less than a header. -/
def Readable (d : Datagram) : Prop :=
  d.truncated = true → ∀ declared, (Frame.walk d.data).fault = some declared → headerSize ≤ declared

theorem complaint?_eq_some_iff {d : Datagram} (hreadable : Readable d) (e : Error) :
    complaint? d (Frame.walk d.data) = some e ↔ Stops d e := by
  cases hwhole : d.truncated with
  | true =>
    rw [complaint?, hwhole, if_pos rfl]
    constructor
    · intro h
      obtain ⟨declared, hfault, rfl⟩ := Option.map_eq_some_iff.mp h
      refine .cut hwhole hfault ?_
      have hlow := hreadable hwhole declared hfault
      rcases (Frame.declared_of_fault hfault).2 with hlow' | hshort
      · omega
      · exact hshort
    · intro h
      cases h with
      | malformed whole | remnant whole => rw [hwhole] at whole; cases whole
      | cut _ fault _ => rw [fault]; rfl
  | false =>
    rw [complaint?, hwhole, if_neg Bool.false_ne_true]
    constructor
    · intro h
      cases hfault : (Frame.walk d.data).fault with
      | some declared =>
        rw [Frame.Walk.complaint?_of_fault hfault] at h
        cases h
        exact .malformed hwhole hfault
      | none =>
        rw [Frame.Walk.complaint?_of_none hfault] at h
        by_cases hempty : (Frame.walk d.data).rest.isEmpty = true
        · rw [if_pos hempty] at h
          cases h
        · rw [if_neg hempty] at h
          cases h
          exact .remnant hwhole hfault (by simpa using hempty)
    · intro h
      cases h with
      | cut cut => rw [hwhole] at cut; cases cut
      | malformed _ fault => exact Frame.Walk.complaint?_of_fault fault
      | remnant _ nofault left =>
        rw [Frame.Walk.complaint?_of_none nofault, if_neg (by simpa using left)]

/-- The datagrams up to the first that stops a listener, and what stops it; or all of them, and the
failure behind. -/
def upTo : List Datagram → Error → List Datagram × Error
  | [], e => ([], e)
  | d :: ds, e =>
    match complaint? d (Frame.walk d.data) with
    | some e => ([d], e)
    | none => (d :: (upTo ds e).1, (upTo ds e).2)

theorem upTo_cases {ds : List Datagram} (hreadable : ∀ d ∈ ds, Readable d) (e : Error) :
    (∃ before d later, ds = before ++ d :: later ∧ (∀ d' ∈ before, ∀ e, ¬ Stops d' e) ∧
      (upTo ds e).1 = before ++ [d] ∧ Stops d (upTo ds e).2) ∨
    (∀ d ∈ ds, ∀ e, ¬ Stops d e) ∧ upTo ds e = (ds, e) := by
  induction ds with
  | nil => exact .inr ⟨by simp, rfl⟩
  | cons d ds ih =>
    have hd := hreadable d List.mem_cons_self
    cases hcomplaint : complaint? d (Frame.walk d.data) with
    | some e' =>
      refine .inl ⟨[], d, ds, rfl, by simp, ?_, ?_⟩
      · simp [upTo, hcomplaint]
      · rw [upTo, hcomplaint]
        exact (complaint?_eq_some_iff hd e').mp hcomplaint
    | none =>
      have hgoing : ∀ e, ¬ Stops d e := by
        intro e hstops
        rw [(complaint?_eq_some_iff hd e).mpr hstops] at hcomplaint
        cases hcomplaint
      rw [upTo, hcomplaint]
      rcases ih fun d' hd' => hreadable d' (List.mem_cons_of_mem _ hd') with
        ⟨before, d', later, rfl, hbefore, hheard, hstops⟩ | ⟨hall, heq⟩
      · refine .inl ⟨d :: before, d', later, rfl, ?_, ?_, hstops⟩
        · exact List.forall_mem_cons.mpr ⟨hgoing, hbefore⟩
        · rw [hheard]
          rfl
      · refine .inr ⟨List.forall_mem_cons.mpr ⟨hgoing, hall⟩, ?_⟩
        rw [heq]

/-! ## Listening -/

/-- What listening comes to if a failure stands behind the notices. -/
def outcome (l : Listener β) (failure : Error) (ns : List (Int32 × Message)) (memory : β) :
    Except Error Unit × β :=
  match l.hand ns memory with
  | (.ok (), memory) => (.error failure, memory)
  | refused => refused

theorem deliver_eq (l : Listener β) (namespaceId : Int32) (sender : UInt32) (fs : List Frame)
    (c : Conversation) (memory : β) :
    let handed := l.hand ((fs.map (Frame.message sender)).map (namespaceId, ·)) memory
    ∃ c', c'.config = c.config ∧
      deliver l namespaceId sender fs c memory = (c', handed.2, handed.1) := by
  induction fs generalizing c memory with
  | nil => exact ⟨c, rfl, rfl⟩
  | cons f fs ih =>
    obtain ⟨⟨⟨result, memory'⟩, log⟩, h⟩ : ∃ x, l namespaceId (f.message sender) memory = x :=
      ⟨_, rfl⟩
    cases result with
    | error e =>
      refine ⟨c.report log, rfl, ?_⟩
      simp only [deliver, hand, List.map_cons, h]
    | ok u =>
      obtain ⟨c', hconfig, hlater⟩ := ih (c.report log) memory'
      refine ⟨c', hconfig, ?_⟩
      simp only [deliver, hand, List.map_cons, h]
      exact hlater

theorem step_eq (l : Listener β) (d : Datagram) (c : Conversation) (memory : β) :
    ∃ c', c'.config = c.config ∧
      step l d c memory =
        match l.hand d.notices memory, complaint? d (Frame.walk d.data) with
        | (.error e, memory), _ => .finished c' memory (.error e)
        | (.ok (), memory), some e => .finished c' memory (.error e)
        | (.ok (), memory), none => .more c' memory := by
  obtain ⟨c₁, hconfig, hdeliver⟩ := deliver_eq l (d.namespaceId.getD unknownNamespace) d.sender
    (Frame.walk d.data).frames c memory
  change deliver _ _ _ _ _ _ = (c₁, (l.hand d.notices memory).2, (l.hand d.notices memory).1)
    at hdeliver
  rw [step, hdeliver]
  rcases l.hand d.notices memory with ⟨e | _, memory'⟩
  · exact ⟨c₁, hconfig, rfl⟩
  · cases complaint? d (Frame.walk d.data) with
    | some e => exact ⟨c₁, hconfig, rfl⟩
    | none =>
      refine ⟨if d.truncated then c₁.report [.cutShort d.data.length] else c₁, ?_, rfl⟩
      split <;> exact hconfig

theorem outcome_upTo_cons (l : Listener β) (d : Datagram) (ds : List Datagram) (e : Error)
    (memory : β) :
    l.outcome (upTo (d :: ds) e).2 ((upTo (d :: ds) e).1.flatMap Datagram.notices) memory =
      match l.hand d.notices memory, complaint? d (Frame.walk d.data) with
      | (.error e, memory), _ => (.error e, memory)
      | (.ok (), memory), some e => (.error e, memory)
      | (.ok (), memory), none =>
        l.outcome (upTo ds e).2 ((upTo ds e).1.flatMap Datagram.notices) memory := by
  rw [upTo]
  cases complaint? d (Frame.walk d.data) with
  | some e' =>
    simp only [outcome, List.flatMap_cons, List.flatMap_nil, List.append_nil]
    rcases l.hand d.notices memory with ⟨e | _, memory'⟩ <;> rfl
  | none =>
    simp only [outcome, List.flatMap_cons, hand_append]
    rcases l.hand d.notices memory with ⟨e | _, memory'⟩ <;> rfl

/-- Listening comes to what the receipts say. -/
theorem listen_eq {σ : Type} [Transport σ] (l : Listener β) (c : Connection σ) (memory : β) :
    let received := Transport.receipts c.state.config.timeout c.endpoint
    let heard := upTo (received.1.filterMap Receipt.datagram?) received.2
    (Connection.listen l memory c).1 =
      l.outcome heard.2 (heard.1.flatMap Datagram.notices) memory := by
  show (c.drain (reader l) memory).1 = _
  -- one receipt for each receive; the step lemma and `outcome_upTo_cons` split in the same way
  fun_induction Connection.drain (reader l) c memory with
  | case1 c memory d s hreceive state c' memory' hmore ih =>
    obtain ⟨c₁, hconfig, hstep⟩ := step_eq l d state memory
    change step l d state memory = .more c' memory' at hmore
    rw [hmore] at hstep
    rw [Transport.receipts_of_ok hreceive, ih]
    dsimp only
    rw [Receipt.filterMap_datagram, outcome_upTo_cons]
    generalize l.hand d.notices memory = handed at hstep ⊢
    generalize complaint? d (Frame.walk d.data) = complaint at hstep ⊢
    obtain ⟨result, memory₁⟩ := handed
    cases result with
    | error e => cases hstep
    | ok u =>
      cases complaint with
      | some e => cases hstep
      | none =>
        cases hstep
        dsimp only
        rw [hconfig]
        rfl
  | case2 c memory d s hreceive state c' memory' result hfinished =>
    obtain ⟨c₁, -, hstep⟩ := step_eq l d state memory
    change step l d state memory = .finished c' memory' result at hfinished
    rw [hfinished] at hstep
    rw [Transport.receipts_of_ok hreceive]
    dsimp only
    rw [Receipt.filterMap_datagram, outcome_upTo_cons]
    generalize l.hand d.notices memory = handed at hstep ⊢
    generalize complaint? d (Frame.walk d.data) = complaint at hstep ⊢
    obtain ⟨result, memory₁⟩ := handed
    cases result with
    | error e =>
      cases hstep
      rfl
    | ok u =>
      cases complaint with
      | some e =>
        cases hstep
        rfl
      | none => cases hstep
  | case3 c memory fault s hreceive hsurvives ih =>
    rw [Transport.receipts_of_overrun hreceive hsurvives, ih]
    rfl
  | case4 c memory fault s hreceive hdies =>
    rw [Transport.receipts_of_error hreceive]
    · rfl
    · intro fault' hfault
      cases hfault
      exact Bool.eq_false_iff.mpr hdies
  | case5 c memory e s hother hreceive =>
    rw [Transport.receipts_of_error hreceive]
    · rfl
    · intro fault hfault
      exact absurd hfault (hother fault)

theorem outcome_ne_ok (l : Listener β) (failure : Error) (ns : List (Int32 × Message))
    (memory : β) : (l.outcome failure ns memory).1 ≠ .ok () := by
  unfold outcome
  rcases l.hand ns memory with ⟨e | _, memory'⟩ <;> simp

theorem outcome_traced (l : Listener β) (failure : Error) (ns : List (Int32 × Message))
    (memory : β) :
    l.traced.outcome failure ns (memory, []) =
      ((l.outcome failure ns memory).1, ((l.outcome failure ns memory).2, l.handed ns memory)) := by
  rw [outcome, outcome, hand_traced, List.nil_append]
  rcases l.hand ns memory with ⟨e | _, memory'⟩ <;> rfl

/-- **A listener is handed everything up to a failure.** It gets the messages of the datagrams in
order, whoever sent them, each with its namespace, as long as it refuses none and until a datagram
stops it or a receive fails; what comes first is the result, and nothing ever ends it well. What is
left of a header at a cut stops nothing. The listener with its calls written down shows what it was
handed. Over an endpoint that brings the same datagrams and ends with the same failure, overruns
between them or not, nothing is different. -/
theorem listen_delivers {σ : Type} [Transport σ] (l : Listener β) (c : Connection σ) (memory : β) :
    let received := Transport.receipts c.state.config.timeout c.endpoint
    let datagrams := received.1.filterMap Receipt.datagram?
    let result := (Connection.listen l memory c).1
    let traced := (Connection.listen l.traced (memory, []) c).1
    (∀ d ∈ datagrams, Readable d) →
    received.2 ≠ .io (.os Errno.noBufferSpace) ∧
    (∀ d, d.truncated = true → (Frame.walk d.data).rest.length < headerSize → ∀ e, ¬ Stops d e) ∧
    (∃ heard failure,
      ((∃ before d later, datagrams = before ++ d :: later ∧ heard = before ++ [d] ∧
          (∀ d' ∈ before, ∀ e, ¬ Stops d' e) ∧ Stops d failure) ∨
        heard = datagrams ∧ (∀ d ∈ datagrams, ∀ e, ¬ Stops d e) ∧ failure = received.2) ∧
      result = l.outcome failure (heard.flatMap Datagram.notices) memory ∧
      traced = (result.1, (result.2, l.handed (heard.flatMap Datagram.notices) memory))) ∧
    result.1 ≠ .ok () ∧
    ∀ {σ' : Type} [Transport σ'] (c' : Connection σ'),
      let received' := Transport.receipts c'.state.config.timeout c'.endpoint
      received'.1.filterMap Receipt.datagram? = datagrams → received'.2 = received.2 →
      (Connection.listen l memory c').1 = result ∧
        (Connection.listen l.traced (memory, []) c').1 = traced := by
  intro received datagrams result traced hreadable
  have hresult : result = _ := listen_eq l c memory
  have htraced : traced = _ := listen_eq l.traced c (memory, [])
  rw [outcome_traced, ← listen_eq l c memory] at htraced
  refine ⟨Transport.receipts_ne_overrun _ _, fun d => not_stops_of_short, ?_, ?_, ?_⟩
  · refine ⟨(upTo datagrams received.2).1, (upTo datagrams received.2).2, ?_, hresult, htraced⟩
    rcases upTo_cases hreadable received.2 with
      ⟨before, d, later, hdatagrams, hbefore, hheard, hstops⟩ | ⟨hall, heq⟩
    · exact .inl ⟨before, d, later, hdatagrams, hheard, hbefore, hstops⟩
    · rw [heq]
      exact .inr ⟨rfl, hall, rfl⟩
  · rw [hresult]
    exact outcome_ne_ok l _ _ memory
  · intro σ' _ c' received' hdatagrams hfailure
    constructor
    · rw [listen_eq l c' memory, hdatagrams, hfailure]
      exact hresult.symm
    · rw [listen_eq l.traced c' (memory, []), hdatagrams, hfailure]
      exact (listen_eq l.traced c (memory, [])).symm

open Dump (sampleObject)

/-- A conversation over an endpoint that brings this and then ends. -/
def sampleHeard (rs : List Receipt) : Connection Script where
  endpoint := { queue := rs.map fun
    | .datagram d => { outcome := .datagram d }
    | .overrun => { outcome := .fault Errno.noBufferSpace } }
  state := { protocol := .route, port := 42, config := {}, seq := 7 }

theorem receipts_sample (rs : List Receipt) :
    Transport.receipts none (sampleHeard rs).endpoint = (rs, .endOfFile) := by
  induction rs with
  | nil => exact Transport.receipts_of_error rfl (by simp)
  | cons r rs ih =>
    cases r with
    | datagram d =>
      have hreceive : Transport.receive none (sampleHeard (.datagram d :: rs)).endpoint =
          (.ok d, (sampleHeard rs).endpoint) := rfl
      rw [Transport.receipts_of_ok hreceive, ih]
    | overrun =>
      have hreceive : Transport.receive none (sampleHeard (.overrun :: rs)).endpoint =
          (.error (.io (.os Errno.noBufferSpace)), (sampleHeard rs).endpoint) := rfl
      rw [Transport.receipts_of_overrun hreceive rfl, ih]

/-- A listener that refuses nothing and remembers the namespaces. -/
def sampleListener : Listener (List Int32) := fun namespaceId _ heard =>
  .taken (heard ++ [namespaceId])

/-- A message and three bytes of another from one namespace, a datagram of someone who is not the
kernel, and one with a byte left over. Overruns before them and between them make no difference. -/
theorem listen_delivers_sample :
    let cut : Datagram := {
      data := (sampleObject 7 [1] (by decide)).record ++ [20, 0, 0]
      truncated := true
      namespaceId := some 5 }
    let foreign : Datagram := {
      data := Packet.records [sampleObject 8 [2] (by decide), sampleObject 9 [3] (by decide)]
      sender := 9 }
    let faulty : Datagram := { data := (sampleObject 7 [4] (by decide)).record ++ [0] }
    let c := sampleHeard [.overrun, .datagram cut, .overrun, .overrun, .datagram foreign,
      .datagram faulty]
    let plain := sampleHeard [.datagram cut, .datagram foreign, .datagram faulty]
    (∀ d ∈ [cut, foreign, faulty], Readable d) ∧
      (Connection.listen sampleListener [] c).1 =
        (.error (.framing (.remnant 1)), [5, -1, -1, -1]) ∧
      (Connection.listen sampleListener [] plain).1 =
        (Connection.listen sampleListener [] c).1 := by
  intro cut foreign faulty c plain
  have hreadable : ∀ d ∈ [cut, foreign, faulty], Readable d := by
    intro d hd hcut declared hfault
    simp only [List.mem_cons, List.not_mem_nil, or_false] at hd
    rcases hd with rfl | rfl | rfl
    · have hnofault : (Frame.walk cut.data).fault = none := by decide +kernel
      rw [hnofault] at hfault
      cases hfault
    · cases hcut
    · cases hcut
  have hreceived := receipts_sample [.overrun, .datagram cut, .overrun, .overrun,
    .datagram foreign, .datagram faulty]
  have hplain := receipts_sample [.datagram cut, .datagram foreign, .datagram faulty]
  have hdatagrams : (Transport.receipts c.state.config.timeout c.endpoint).1.filterMap
      Receipt.datagram? = [cut, foreign, faulty] :=
    congrArg (fun received : List Receipt × Error => received.1.filterMap Receipt.datagram?)
      hreceived
  have hlistened : (Connection.listen sampleListener [] c).1 =
      (.error (.framing (.remnant 1)), [5, -1, -1, -1]) :=
    Prod.ext (eq_error_of_failure? (by decide +kernel)) (by decide +kernel)
  refine ⟨hreadable, hlistened, ?_⟩
  rw [← hdatagrams] at hreadable
  obtain ⟨-, -, -, -, hsame⟩ := listen_delivers sampleListener c [] hreadable
  refine (hsame plain ?_ ?_).1
  · rw [hdatagrams]
    exact congrArg (fun received : List Receipt × Error => received.1.filterMap Receipt.datagram?)
      hplain
  · exact (congrArg Prod.snd hplain).trans (congrArg Prod.snd hreceived).symm

end Listener
end Netlink
