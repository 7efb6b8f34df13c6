import Netlink.Endpoint.Script
import Netlink.Proofs.Socket.Serving

/-! # What waits at an endpoint

An endpoint holds the datagrams that have arrived in a queue. A send may add to its end, to look
changes nothing and shows the first unless something keeps it from that, and what a receive brings is
the first. So whoever goes on receiving gets what waits, in order and without gaps, whatever fails in
between. -/

namespace Netlink

/-- An endpoint that keeps what arrives in a queue. -/
class Transport.Queued (σ : Type) [Transport σ] where
  /-- The datagrams that have arrived and were not received yet, in order. -/
  waiting : σ → List Datagram
  waiting_of_send {pieces : List Bytes} {s s' : σ} :
    Transport.send pieces s = (.ok (), s') → waiting s <+: waiting s'
  waiting_of_peek {s s' : σ} {found : Option Bytes} :
    Transport.peek s = (.ok found, s') → waiting s' = waiting s
  /-- What is seen is the first. -/
  first_of_peek {s s' : σ} {data : Bytes} :
    Transport.peek s = (.ok (some data), s') → data ≠ [] →
      ∃ d, (waiting s).head? = some d ∧ d.data = data
  /-- Nothing stands between a look and the first datagram that waits. -/
  Unhindered : σ → Prop
  peek_of_unhindered {s : σ} :
    Unhindered s → ∃ s', Transport.peek s = (.ok ((waiting s).head?.map Datagram.data), s')
  waiting_of_receive {patience : Option Nat} {s s' : σ} {d : Datagram} :
    Transport.receive patience s = (.ok d, s') → waiting s = d :: waiting s'
  /-- A receive with as much time as it takes loses nothing when it fails. -/
  waiting_of_failure {s s' : σ} {e : Error} :
    Transport.receive none s = (.error e, s') → waiting s' = waiting s

namespace Transport

open Queued (waiting)

variable {σ : Type} [Transport σ]

/-- The datagrams that so many receives bring, each with as much time as it takes. Those that fail
bring nothing. -/
def receives : Nat → σ → List Datagram × σ
  | 0, s => ([], s)
  | n + 1, s =>
    match Transport.receive none s with
    | (.ok d, s) =>
      let later := receives n s
      (d :: later.1, later.2)
    | (.error _, s) => receives n s

/-- What is received and what still waits is what has been waiting. -/
theorem receives_append_waiting [Queued σ] (n : Nat) (s : σ) :
    (receives n s).1 ++ waiting (receives n s).2 = waiting s := by
  induction n generalizing s with
  | zero => rfl
  | succ n ih =>
    obtain ⟨outcome, s', hreceive⟩ : ∃ outcome s', Transport.receive none s = (outcome, s') :=
      ⟨_, _, rfl⟩
    rw [receives, hreceive]
    cases outcome with
    | ok d =>
      rw [Queued.waiting_of_receive hreceive]
      exact congrArg (d :: ·) (ih s')
    | error e =>
      rw [← Queued.waiting_of_failure hreceive]
      exact ih s'

end Transport

/-! ## Scripts -/

namespace Script

def Outcome.datagram? : Outcome → Option Datagram
  | datagram d => some d
  | _ => none

/-- The datagrams in the queue of a script. -/
def datagrams (s : Script) : List Datagram := s.queue.filterMap fun a => a.outcome.datagram?

variable {s s' : Script}

theorem datagrams_cons {a : Arrival} {as : List Arrival} (h : s.queue = a :: as) :
    s.datagrams = a.outcome.datagram?.toList ++ { s with queue := as }.datagrams := by
  simp only [datagrams, h, List.filterMap_cons]
  cases a.outcome.datagram? with
  | none => rfl
  | some d => rfl

theorem datagrams_of_send {pieces : List Bytes} (h : s.send pieces = (.ok (), s')) :
    s.datagrams <+: s'.datagrams := by
  unfold send at h
  split at h
  · cases h
  · split at h
    · cases h
    · cases h
      rw [datagrams, datagrams, List.filterMap_append]
      exact List.prefix_append ..
    · cases h
      exact List.prefix_rfl

/-- To look changes nothing at all, and shows the first arrival if it is a datagram. -/
theorem of_peek {found : Option Bytes} (h : s.peek = (.ok found, s')) :
    s' = s ∧ ∀ data, found = some data → ∃ d, s.datagrams.head? = some d ∧ d.data = data := by
  unfold peek at h
  split at h
  · cases h
  · split at h
    · rename_i d later hqueue
      cases h
      refine ⟨rfl, ?_⟩
      rintro data ⟨⟩
      obtain ⟨a, as, hq, houtcome, -⟩ := List.map_eq_cons_iff.mp hqueue
      refine ⟨d, ?_, rfl⟩
      rw [datagrams_cons hq, houtcome]
      rfl
    · cases h
    · cases h
      refine ⟨rfl, ?_⟩
      rintro data ⟨⟩

/-- The script goes on, and whatever arrives first is a datagram. -/
def Unhindered (s : Script) : Prop :=
  s.closed = false ∧ ∀ a ∈ s.queue.head?, a.outcome.datagram? ≠ none

theorem peek_of_unhindered (h : s.Unhindered) :
    s.peek = (.ok (s.datagrams.head?.map Datagram.data), s) := by
  obtain ⟨hopen, hfirst⟩ := h
  rw [peek, if_neg (by simp [hopen])]
  cases hq : s.queue with
  | nil =>
    rw [datagrams, hq]
    rfl
  | cons a as =>
    rw [datagrams_cons hq, List.map_cons]
    rw [hq] at hfirst
    have ha := hfirst a rfl
    cases houtcome : a.outcome with
    | datagram d => rfl
    | fault | endOfFile | silence =>
      rw [houtcome] at ha
      exact absurd rfl ha

theorem datagrams_of_receive {patience : Option Nat} {d : Datagram}
    (h : s.receive patience = (.ok d, s')) : s.datagrams = d :: s'.datagrams := by
  unfold receive at h
  split at h
  · cases h
  · split at h
    · cases h
    · rename_i a as hq
      dsimp only at h
      split at h
      · split at h
        · rename_i d' houtcome
          cases h
          rw [datagrams_cons hq, houtcome]
          rfl
        · cases h
        · cases h
        · cases h
      · cases h

theorem datagrams_of_failure {e : Error} (h : s.receive none = (.error e, s')) :
    s'.datagrams = s.datagrams := by
  unfold receive at h
  split at h
  · cases h
    rfl
  · split at h
    · cases h
      rfl
    · rename_i a as hq
      rw [datagrams_cons hq]
      dsimp only at h
      split at h
      · split at h
        · cases h
        all_goals
          rename_i houtcome
          cases h
          rw [houtcome]
          rfl
      · rename_i hlate
        exact absurd rfl hlate

instance : Transport.Queued Script where
  waiting := datagrams
  waiting_of_send := datagrams_of_send
  waiting_of_peek h := by rw [(of_peek h).1]
  first_of_peek h _ := (of_peek h).2 _ rfl
  Unhindered := Unhindered
  peek_of_unhindered h := ⟨_, peek_of_unhindered h⟩
  waiting_of_receive := datagrams_of_receive
  waiting_of_failure := datagrams_of_failure

end Script

/-! ## Sockets -/

namespace Socket

open Host

/-- The datagrams that wait at a socket. One without contents is none: it says that the other side is
gone. -/
def datagrams (s : Socket) : List Datagram :=
  s.host.waiting.filterMap fun w => (givenOut (w.brought w.told)).toOption

variable {s s' : Socket} {h h' h₁ : Host} {patience : Option Nat}

theorem datagrams_of_waiting (hw : s'.host.waiting = s.host.waiting) :
    s'.datagrams = s.datagrams := congrArg (List.filterMap _) hw

/-- Only a receive takes something off the queue. -/
theorem Use.Decides.waiting_eq {faults : Faults} {use : Use} {ws ws' : List Waiting} {c : Call}
    {answer : Answer} (hdecides : use.Decides faults ws c answer ws') (huse : use.isReceive = false) :
    ws' = ws := by
  cases hdecides with
  | received => cases huse
  | sent | seen | unseen | refused => rfl

theorem Served.waiting_eq {use : Use} {answer : Answer} (hserved : Served use answer h h')
    (huse : use.isReceive = false) : h'.waiting = h.waiting := by
  obtain ⟨_, -, _, _, -, -, hdecides⟩ := hserved.serves
  exact hdecides.waiting_eq huse

theorem datagrams_of_send {pieces : List Bytes} (hsend : s.send pieces = (.ok (), s')) :
    s'.datagrams = s.datagrams := by
  unfold send at hsend
  split at hsend
  · have hserved := served_sendRaw pieces s.host
    have hs : s' = { s with host := (sendRaw pieces s.host).2 } := (congrArg Prod.snd hsend).symm
    rw [hs]
    exact datagrams_of_waiting (hserved.waiting_eq rfl)
  · cases hsend

theorem served_of_peek {outcome : Except Error (Option Bytes)} (hpeek : s.peek = (outcome, s'))
    (hok : outcome.isOk) : Served .peek (.seen outcome) s.host s'.host := by
  have hopen : s.isOpen = true := by
    by_cases hopen : s.isOpen = true
    · exact hopen
    · rw [peek, if_neg hopen] at hpeek
      cases hpeek
      cases hok
  have hserved := served_peek hopen
  rwa [hpeek] at hserved

theorem datagrams_of_peek {found : Option Bytes} (hpeek : s.peek = (.ok found, s')) :
    s'.datagrams = s.datagrams :=
  datagrams_of_waiting ((served_of_peek hpeek rfl).waiting_eq rfl)

theorem first_of_peek {data : Bytes} (hpeek : s.peek = (.ok (some data), s')) (hsome : data ≠ []) :
    ∃ d, s.datagrams.head? = some d ∧ d.data = data := by
  obtain ⟨_, -, _, _, -, -, hdecides⟩ := (served_of_peek hpeek rfl).serves
  generalize hseen : Answer.seen (.ok (some data)) = answer at hdecides
  generalize hws : s.host.waiting = ws at hdecides
  generalize s'.host.waiting = ws' at hdecides
  cases hdecides with
  | seen w ws =>
    cases hseen
    have hfull : ¬ (w.brought w.told).data.isEmpty = true := by
      rw [List.isEmpty_iff]
      exact hsome
    rw [datagrams, hws, List.filterMap_cons, givenOut, if_neg hfull]
    exact ⟨_, rfl, rfl⟩
  | unseen => cases hseen
  | refused => cases hseen

/-- The socket is open, and the first datagram that waits, if there is one, can be read and is not the
end. Calls that look at it may be interrupted. -/
def Unhindered (s : Socket) : Prop :=
  s.isOpen = true ∧ ∀ w ∈ s.host.queue.head?, w.silent = false ∧ w.data.take w.told ≠ [] ∧
    ∀ wanted n, some n ∈ w.faults wanted → n = Errno.interrupted

theorem peek_of_unhindered (h : s.Unhindered) :
    ∃ s', s.peek = (.ok (s.datagrams.head?.map Datagram.data), s') := by
  obtain ⟨hopen, hfirst⟩ := h
  unfold peek
  rw [if_pos hopen]
  cases hq : s.host.queue with
  | nil =>
    have hnothing : s.datagrams = [] := by
      rw [datagrams, waiting, hq]
      rfl
    have hblocked : ∃ h', s.host.size (noWaitFlag ||| peekFlag ||| sizeFlag) =
        (.error Errno.wouldBlock, h') := by
      rw [Host.size, look_of_empty hq, if_pos (by decide)]
      exact ⟨_, rfl⟩
    obtain ⟨h₁, hblocked⟩ := hblocked
    have hsizing : (sizing (noWaitFlag ||| peekFlag ||| sizeFlag)).run s.host = _ :=
      Retried.run_of_error hblocked (by decide)
    rw [hsizing, hnothing]
    exact ⟨_, rfl⟩
  | cons w rest =>
    rw [hq] at hfirst
    obtain ⟨hloud, hsome, honly⟩ := hfirst w rfl
    have hsize : (sizing (noWaitFlag ||| peekFlag ||| sizeFlag)).call =
      look .size 0 (noWaitFlag ||| peekFlag ||| sizeFlag) (·.elim 0 Waiting.told) id := rfl
    have hcopy : (copying w.told (peekFlag ||| noWaitFlag)).call =
      look .contents w.told (peekFlag ||| noWaitFlag) (·.elim [] fun v => v.data.take w.told)
        List.length := rfl
    obtain ⟨h₁, w₁, hsizing, hq₁, hcalm₁, hothers⟩ :=
      Retried.run_of_loud hsize rfl (fun _ => rfl) hq hloud (honly .size)
    have hloud₁ : w₁.silent = false := (congrArg Waiting.silent hcalm₁).trans hloud
    have honly₁ : ∀ n, some n ∈ w₁.faults .contents → n = Errno.interrupted := by
      rw [hothers .contents (by decide)]
      exact honly .contents
    obtain ⟨h₂, w₂, hcopying, -, -, -⟩ :=
      Retried.run_of_loud hcopy rfl (fun _ => rfl) hq₁ hloud₁ honly₁
    have hdata₁ : w₁.data = w.data := by
      have hsame : w₁.calm.data = w.calm.data := congrArg Waiting.data hcalm₁
      exact hsame
    have hfull : ¬ (w.calm.brought w.calm.told).data.isEmpty = true := by
      rw [List.isEmpty_iff]
      exact hsome
    have hhead : s.datagrams.head?.map Datagram.data = some (w.data.take w.told) := by
      rw [datagrams, waiting_cons hq, List.filterMap_cons, givenOut, if_neg hfull]
      rfl
    dsimp only [Option.elim] at hsizing hcopying
    rw [hsizing]
    dsimp only
    rw [hcopying, hdata₁, hhead]
    exact ⟨_, rfl⟩

/-! ### Receiving -/

/-- Without anything to be read, an attempt brings nothing. -/
theorem attempt_of_empty (hempty : h.waiting = []) :
    ∃ r h', attempt h = (.ok r, h') ∧ r.data = [] ∧ h'.waiting = [] := by
  have hqueue : h.queue = [] := List.map_eq_nil_iff.mp hempty
  let told := h.record (.read 0 (peekFlag ||| sizeFlag) 0)
  have hwait : isNoWait (peekFlag ||| sizeFlag) = false := by decide
  have hsize : h.size (peekFlag ||| sizeFlag) = (.ok 0, told) := by
    rw [Host.size, look_of_empty hqueue, if_neg (by rw [hwait]; decide)]
    rfl
  have hread : told.read 0 =
      (.ok ⟨[], 0, [], false⟩, told.record (.readMessage 0 controlRoom 0 0)) := by
    have hqueue' : told.queue = [] := hqueue
    rw [Host.read, hqueue']
  have hsizing : (sizing (peekFlag ||| sizeFlag)).run h = (.ok 0, told) := Retried.run_of_ok hsize
  have hreading : (reading 0).run told = _ := Retried.run_of_ok hread
  refine ⟨⟨[], 0, [], false⟩, told.record (.readMessage 0 controlRoom 0 0), ?_, rfl, hempty⟩
  rw [attempt, hsizing]
  exact hreading

/-- What a read took off the queue: the first datagram, or nothing if there was none. -/
def Took (r : Received) (ws ws' : List Waiting) : Prop :=
  (∃ w, ws = w :: ws' ∧ r = w.brought w.told) ∨ ws = [] ∧ ws' = [] ∧ r.data = []

/-- An attempt that succeeds takes the first datagram, and one that fails takes nothing. -/
theorem waiting_of_attempt (hready : whenReadable patience h = some h₁) :
    (∀ r, attempt h₁ = (.ok r, h') → Took r h.waiting h'.waiting) ∧
      ∀ n, attempt h₁ = (.error n, h') → h'.waiting = h.waiting := by
  cases hw : h.waiting with
  | nil =>
    have hempty := (later_of_whenReadable hready).waiting.trans hw
    obtain ⟨r, h₂, hattempt, hdata, hleft⟩ := attempt_of_empty hempty
    rw [hattempt]
    constructor
    · rintro _ ⟨⟩
      exact .inr ⟨rfl, hleft, hdata⟩
    · rintro _ ⟨⟩
  | cons w ws =>
    obtain ⟨tries, h₂, hlater, -, ⟨r, h₃, hattempt, hr, hread⟩ | ⟨n, h₃, c, hattempt, -, hfailed, -⟩⟩ :=
      attempt_cases hready hw
    · rw [hattempt]
      constructor
      · rintro _ ⟨⟩
        refine .inl ⟨w, ?_, hr⟩
        rw [hread.waiting, hlater.waiting, hw]
        rfl
      · rintro _ ⟨⟩
    · rw [hattempt]
      constructor
      · rintro _ ⟨⟩
      · rintro _ ⟨⟩
        rw [hfailed.later.waiting, hlater.waiting, hw]
        rfl

theorem waiting_of_receiveRaw {outcome : Except Error Received}
    (hreceive : receiveRaw patience h = (outcome, h')) :
    (∀ r, outcome = .ok r → Took r h.waiting h'.waiting) ∧
      ∀ e, outcome = .error e → h'.waiting = h.waiting := by
  fun_induction receiveRaw patience h with
  | case1 h hnever =>
    cases hreceive
    refine ⟨?_, fun _ _ => rfl⟩
    rintro _ ⟨⟩
  | case2 h h₁ hready r h₂ hattempt =>
    cases hreceive
    constructor
    · rintro _ ⟨⟩
      exact (waiting_of_attempt hready).1 r hattempt
    · rintro _ ⟨⟩
  | case3 h h₁ hready h₂ hattempt ih =>
    have hsame : h₂.waiting = h.waiting := (waiting_of_attempt hready).2 _ hattempt
    rw [← hsame]
    exact ih hreceive
  | case4 h h₁ hready n h₂ hattempt hblocked =>
    cases hreceive
    refine ⟨?_, fun _ _ => (waiting_of_attempt hready).2 n hattempt⟩
    rintro _ ⟨⟩

/-- What a receive gives out is taken off the datagrams, and a receive that fails takes none. -/
theorem datagrams_eq_of_receive {outcome : Except Error Datagram}
    (hreceive : s.receive patience = (outcome, s')) :
    s.datagrams = outcome.toOption.toList ++ s'.datagrams := by
  by_cases hopen : s.isOpen = true
  · obtain ⟨raw, host, hraw⟩ : ∃ raw host, receiveRaw patience s.host = (raw, host) := ⟨_, _, rfl⟩
    obtain ⟨htook, hkept⟩ := waiting_of_receiveRaw hraw
    rw [receive_eq hopen, hraw] at hreceive
    cases hreceive
    cases raw with
    | error e => exact (datagrams_of_waiting (hkept e rfl)).symm
    | ok r =>
      rcases htook r rfl with ⟨w, hw, rfl⟩ | ⟨hw, hw', hdata⟩
      · rw [datagrams, hw, List.filterMap_cons, Except.bind]
        cases givenOut (w.brought w.told) with
        | ok d => rfl
        | error e => rfl
      · have hnothing : givenOut r = .error .endOfFile := by
          rw [givenOut, hdata]
          rfl
        rw [datagrams, datagrams, hw, hw', Except.bind, hnothing]
        rfl
  · rw [receive, if_neg hopen] at hreceive
    cases hreceive
    rfl

instance : Transport.Queued Socket where
  waiting := datagrams
  waiting_of_send hsend := datagrams_of_send hsend ▸ List.prefix_rfl
  waiting_of_peek := datagrams_of_peek
  first_of_peek := first_of_peek
  Unhindered := Unhindered
  peek_of_unhindered := peek_of_unhindered
  waiting_of_receive := datagrams_eq_of_receive
  waiting_of_failure hreceive := (datagrams_eq_of_receive hreceive).symm

end Socket
end Netlink
