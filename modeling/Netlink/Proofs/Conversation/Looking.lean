import Netlink.Proofs.Endpoint.Outbox
import Netlink.Proofs.Endpoint.Queue
import Netlink.Proofs.Message.Cursor
import Netlink.Proofs.Message.Replies

/-! # Looking without taking

A message can be sent without waiting for its answer, and a look at what has arrived may show that the
kernel has refused it. The look takes nothing, so that all that has arrived is there for those who
receive later; and what it shows is decided by the first ERROR among the whole messages at the front. -/

namespace Netlink

namespace Frame

/-! ## The messages at the front -/

/-- No message begins here: there are fewer bytes than a header, or the header declares less than itself
or more than there is. -/
def Stuck (rest : Bytes) : Prop :=
  rest.length < headerSize ∨
    let declared := (Header.ofBytes (rest.take headerSize)).length.toNat
    declared < headerSize ∨ rest.length < declared

/-- The frames are all whole messages at the front of the data: they stand one behind another from the
first byte on, up to where no message begins. -/
def Leading (data : Bytes) (fs : List Frame) : Prop :=
  ∃ stop, Path data 0 fs stop ∧ Stuck (data.drop stop)

theorem frames_of_stuck {rest : Bytes} (h : Stuck rest) (offset : Nat) :
    (walkFrom offset rest).frames = [] := by
  have hspec := Front.of_spec rest
  cases hfront : Front.of rest with
  | short => rw [walkFrom_of_short hfront]
  | malformed declared => rw [walkFrom_of_malformed hfront]
  | message header bytes behind =>
    rw [hfront] at hspec
    obtain ⟨-, hlow, hhigh, -⟩ := hspec
    have hheader := Nat.le_trans hlow hhigh
    rcases h with hshort | hbelow | habove
    · exact absurd hshort (Nat.not_lt.mpr hheader)
    · exact absurd hbelow (Nat.not_lt.mpr hlow)
    · exact absurd habove (Nat.not_lt.mpr hhigh)

theorem front_of_stands {data : Bytes} {f : Frame} (h : f.StandsIn data) :
    ∃ rest, Front.of (data.drop f.offset) = .message f.header f.bytes rest := by
  have hspec := Front.of_spec (data.drop f.offset)
  rw [← h.header] at hspec
  have hlow := h.declared
  have hhigh : f.header.length.toNat ≤ (data.drop f.offset).length := by
    have hinside := h.inside
    rw [List.length_drop]
    omega
  cases hfront : Front.of (data.drop f.offset) with
  | short =>
    rw [hfront] at hspec
    exact absurd hspec (Nat.not_lt.mpr (Nat.le_trans hlow hhigh))
  | malformed declared =>
    rw [hfront] at hspec
    obtain ⟨-, rfl, hbelow | habove⟩ := hspec
    · exact absurd hbelow (Nat.not_lt.mpr hlow)
    · exact absurd habove (Nat.not_lt.mpr hhigh)
  | message header bytes rest =>
    rw [hfront] at hspec
    obtain ⟨rfl, -, -, rfl, -⟩ := hspec
    rw [h.bytes]
    exact ⟨rest, rfl⟩

theorem frames_of_path {data : Bytes} {offset stop : Nat} {fs : List Frame}
    (hpath : Path data offset fs stop) (hstuck : Stuck (data.drop stop)) :
    (walkFrom offset (data.drop offset)).frames = fs := by
  induction hpath with
  | nil offset => exact frames_of_stuck hstuck offset
  | @cons f fs stop hstands _ ih =>
    obtain ⟨rest, hfront⟩ := front_of_stands hstands
    have hrest : rest = data.drop f.next := by
      rw [Front.rest_of_message hfront, List.drop_drop]
      rfl
    rw [walkFrom_of_message hfront, hrest]
    exact congrArg (f :: ·) (ih hstuck)

/-- The messages of a walk are those at the front, and no others are. -/
theorem leading_iff {data : Bytes} {fs : List Frame} :
    Leading data fs ↔ (walk data).frames = fs := by
  constructor
  · rintro ⟨stop, hpath, hstuck⟩
    exact frames_of_path hpath hstuck
  · rintro rfl
    obtain ⟨stop, hpath, hrest⟩ := path_walkFrom data 0
    refine ⟨stop, hpath, ?_⟩
    have hend := rest_walkFrom 0 (data.drop 0)
    dsimp only at hend
    rw [← hrest]
    cases hfault : (walkFrom 0 (data.drop 0)).fault with
    | none =>
      rw [hfault] at hend
      exact .inl hend
    | some declared =>
      rw [hfault] at hend
      obtain ⟨-, rfl, hdeclared⟩ := hend
      exact .inr hdeclared

/-- The code of an ERROR message. -/
def code (f : Frame) : Int32 := (Wire.word32 f.payload).toInt32

/-- The frame is an ERROR message, and none of those in front of it is. -/
def FirstError (fs : List Frame) (f : Frame) : Prop :=
  f.header.type = MessageType.error ∧ ∃ before behind, fs = before ++ f :: behind ∧
    ∀ g ∈ before, g.header.type ≠ MessageType.error

end Frame

/-- The size of a code without its sign. The least code has none of thirty-two bits, and takes the
greatest number instead. -/
def Error.absolute (code : Int32) : Nat :=
  if code = Int32.minValue then 2147483647 else code.toInt.natAbs

theorem Error.number_eq_absolute (code : Int32) : number code = absolute code := by
  rw [number, absolute]
  by_cases hmin : code = Int32.minValue
  · rw [if_pos hmin, hmin]
    decide
  · have hlow := least_lt_toInt hmin
    have hhigh := code.toInt_lt
    rw [if_neg hmin]
    omega

namespace Connection

open Netlink.Frame (FirstError Leading)
open Transport (receives)
open Transport.Queued (Unhindered waiting)

/-! ## What a look decides -/

/-- What messages decide, and what is reported on the way. -/
inductive Decided (fs : List Frame) : Except Error Unit → List Event → Prop
  | unrefused (none : ∀ f ∈ fs, f.header.type ≠ MessageType.error) : Decided fs (.ok ()) []
  | short {f : Frame} (first : FirstError fs f) (short : f.payload.length < 20) :
      Decided fs (.error (.truncated 20 f.payload.length)) [.shortError]
  | acknowledged {f : Frame} (first : FirstError fs f) (long : 20 ≤ f.payload.length)
      (zero : f.code = 0) : Decided fs (.ok ()) []
  | refused {f : Frame} (first : FirstError fs f) (long : 20 ≤ f.payload.length)
      (nonzero : f.code ≠ 0) : Decided fs (.error (.kernel (Error.absolute f.code) none)) []

/-- What a look decides: nothing that has arrived refuses the message, and otherwise it is for the
messages at the front to decide. -/
inductive Looked : Option Bytes → Except Error Unit → List Event → Prop
  | nothing : Looked none (.ok ()) []
  | arrived {data : Bytes} {fs : List Frame} {result : Except Error Unit} {log : List Event}
      (leading : Leading data fs) (decided : Decided fs result log) :
      Looked (some data) result log

theorem firstError?_eq_some_iff {fs : List Frame} {f : Frame} :
    firstError? fs = some f ↔ FirstError fs f := by
  simp [firstError?, FirstError, List.find?_eq_some_iff_append, Header.isError]

theorem firstError?_eq_none_iff {fs : List Frame} :
    firstError? fs = none ↔ ∀ f ∈ fs, f.header.type ≠ MessageType.error := by
  simp [firstError?, Header.isError]

/-- What is made of the messages at the front. -/
def judged (fs : List Frame) : Except Error Unit × List Event :=
  match firstError? fs with
  | none => (.ok (), [])
  | some f =>
    match ErrorReply.decode f.payload with
    | .error e => (.error e, [.shortError])
    | .ok reply =>
      (if reply.isAck then .ok () else .error (Error.ofCode reply.code none), [])

theorem decided_judged (fs : List Frame) : Decided fs (judged fs).1 (judged fs).2 := by
  rw [judged]
  cases hfirst : firstError? fs with
  | none => exact .unrefused (firstError?_eq_none_iff.mp hfirst)
  | some f =>
    have hfirst := firstError?_eq_some_iff.mp hfirst
    dsimp only
    by_cases hshort : f.payload.length < ErrorReply.size
    · rw [ErrorReply.decode_of_short hshort]
      exact .short hfirst hshort
    · have hlong : 20 ≤ f.payload.length := Nat.le_of_not_lt hshort
      have hcode : (ErrorReply.ofBytes (f.payload.take ErrorReply.size)).code = f.code :=
        ErrorReply.code_ofBytes_take f.payload
      rw [ErrorReply.decode_of_long hshort]
      dsimp only
      rw [ErrorReply.isAck, hcode, Error.ofCode, Error.number_eq_absolute]
      by_cases hzero : f.code = 0
      · rw [if_pos (decide_eq_true hzero)]
        exact .acknowledged hfirst hlong hzero
      · rw [if_neg (by simpa using hzero)]
        exact .refused hfirst hlong hzero

/-- What a look comes to. -/
def sight : Option Bytes → Except Error Unit × List Event
  | none => (.ok (), [])
  | some arrived => judged (Frame.walk arrived).frames

theorem looked_sight (found : Option Bytes) : Looked found (sight found).1 (sight found).2 := by
  cases found with
  | none => exact .nothing
  | some data => exact .arrived (Frame.leading_iff.mpr rfl) (decided_judged _)

/-! ## What a look leaves -/

section Looking

variable {σ : Type} [Transport σ] {message : Bytes} {c : Connection σ} {s₁ s₂ : σ}
  {found : Option Bytes}

/-- If the message can be sent and the look succeeds, then the endpoint is as the look left it, and
nothing has been done to the conversation but to report. -/
theorem postChecked_run (hsend : Transport.send [message] c.endpoint = (.ok (), s₁))
    (hpeek : Transport.peek s₁ = (.ok found, s₂)) :
    postChecked message c = ((sight found).1,
      ⟨s₂, (c.state.report [.sent 1 message.length]).report (sight found).2⟩) := by
  have hpost : post message c = (.ok (), ⟨s₁, c.state.report [.sent 1 message.length]⟩) := by
    rw [post, send, hsend]
    simp
  have hlook : peek ⟨s₁, c.state.report [.sent 1 message.length]⟩ =
      (.ok found, ⟨s₂, c.state.report [.sent 1 message.length]⟩) := by
    rw [peek, hpeek]
  have hsilent (state : Conversation) : state.report [] = state := by
    rw [Conversation.report, List.append_nil]
  rw [postChecked, Action.bind_eq, hpost]
  dsimp only
  rw [Action.bind_eq, hlook]
  dsimp only
  cases found with
  | none =>
    rw [sight, hsilent]
    rfl
  | some arrived =>
    dsimp only [sight, judged]
    cases firstError? (Frame.walk arrived).frames with
    | none =>
      rw [hsilent]
      rfl
    | some f =>
      dsimp only
      cases ErrorReply.decode f.payload with
      | error e => rfl
      | ok reply =>
        dsimp only
        rw [hsilent]
        cases reply.isAck with
        | true => rfl
        | false => rfl

/-- Nobody is given anything to send but the message. -/
theorem sends_postChecked (hsend : Transport.send [message] c.endpoint = (.ok (), s₁))
    (hpeek : Transport.peek s₁ = (.ok found, s₂)) :
    Sends (fun τ _ => (postChecked message : Action τ Unit)) c [[message]] := by
  have hsend' : Transport.send [message] (c.noting []).endpoint =
      (.ok (), (⟨s₁, [[message]]⟩ : Outbox σ)) := by
    change ((Transport.send [message] c.endpoint).1,
      (⟨(Transport.send [message] c.endpoint).2, [[message]]⟩ : Outbox σ)) = _
    rw [hsend]
  have hpeek' : Transport.peek (⟨s₁, [[message]]⟩ : Outbox σ) = (.ok found, ⟨s₂, [[message]]⟩) := by
    change ((Transport.peek s₁).1, (⟨(Transport.peek s₁).2, [[message]]⟩ : Outbox σ)) = _
    rw [hpeek]
  unfold Sends
  dsimp only
  rw [postChecked_run hsend' hpeek', postChecked_run hsend hpeek]
  rfl

/-- **A look takes nothing.** Whatever waits at an endpoint, if the message can be sent and the look
succeeds, then the message is sent once; what waited and what the send brought about still waits, and
goes to later receives in order; no number is used up; and what the look shows decides. That is the
first that waits, and unless something stands between the two, it is shown if anything waits. The first
ERROR among the whole messages at the front is a refusal if its code is not zero, and is itself at fault
if it is too short; without one, or without anything that waits, the message counts as sent. -/
theorem postChecked_looks [Transport.Queued σ]
    (hsend : Transport.send [message] c.endpoint = (.ok (), s₁))
    (hpeek : Transport.peek s₁ = (.ok found, s₂)) :
    let result := (postChecked message c).1
    let after := (postChecked message c).2
    Sends (fun τ _ => (postChecked message : Action τ Unit)) c [[message]] ∧
      (waiting c.endpoint <+: waiting s₁ ∧ waiting after.endpoint = waiting s₁ ∧
        ∀ n, (receives n after.endpoint).1 ++ waiting (receives n after.endpoint).2 =
          waiting s₁) ∧
      (after.state.seq = c.state.seq ∧ after.state.dumpSeq = c.state.dumpSeq) ∧
      (∃ log, Looked found result log ∧
        (Unhindered s₁ → Looked ((waiting s₁).head?.map Datagram.data) result log) ∧
        after.state = c.state.report (.sent 1 message.length :: log)) ∧
      (Unhindered s₁ → found = (waiting s₁).head?.map Datagram.data) ∧
      (∀ data, found = some data → data ≠ [] →
        ∃ d, (waiting s₁).head? = some d ∧ d.data = data) ∧
      (waiting s₁ = [] → result = .ok ()) := by
  intro result after
  have hrun := postChecked_run hsend hpeek
  have hresult : result = (sight found).1 := congrArg Prod.fst hrun
  have hafter : after =
      ⟨s₂, (c.state.report [.sent 1 message.length]).report (sight found).2⟩ :=
    congrArg Prod.snd hrun
  have hkept : waiting after.endpoint = waiting s₁ := by
    rw [hafter]
    exact Transport.Queued.waiting_of_peek hpeek
  have hfirst : ∀ data, found = some data → data ≠ [] →
      ∃ d, (waiting s₁).head? = some d ∧ d.data = data := by
    rintro data rfl hsome
    exact Transport.Queued.first_of_peek hpeek hsome
  have hshown : Unhindered s₁ → found = (waiting s₁).head?.map Datagram.data := by
    intro hunhindered
    obtain ⟨s', hlook⟩ := Transport.Queued.peek_of_unhindered hunhindered
    rw [hpeek] at hlook
    exact Except.ok.inj (congrArg Prod.fst hlook)
  have hlooked : Looked found result (sight found).2 := by
    rw [hresult]
    exact looked_sight found
  refine ⟨sends_postChecked hsend hpeek,
    ⟨Transport.Queued.waiting_of_send hsend, hkept, fun n => ?_⟩, ?_,
    ⟨(sight found).2, hlooked, fun hunhindered => ?_, ?_⟩, hshown, hfirst, fun hnone => ?_⟩
  · rw [Transport.receives_append_waiting, hkept]
  · rw [hafter]
    exact ⟨rfl, rfl⟩
  · exact hshown hunhindered ▸ hlooked
  · rw [hafter, Conversation.report, Conversation.report, List.append_assoc]
    rfl
  · rw [hresult]
    cases hfound : found with
    | none => rfl
    | some data =>
      have hempty : data = [] := by
        refine Decidable.byContradiction fun hsome => ?_
        obtain ⟨d, hd, -⟩ := hfirst data hfound hsome
        rw [hnone] at hd
        cases hd
      rw [hempty, sight, Frame.walk, Frame.walkFrom_of_short rfl]
      rfl

end Looking

/-- A refusal waits, and another datagram behind it. Both are still there. -/
theorem postChecked_looks_sample :
    let refusal : Datagram :=
      { data := [36, 0, 0, 0, 2, 0, 0, 0] ++ Wire.zeros 8 ++ [0xa1, 0xff, 0xff, 0xff] ++
          Wire.zeros 16 }
    let other : Datagram := { data := [1, 2, 3] }
    let c : Connection Script := {
      endpoint := { queue := [refusal, other].map fun d => { outcome := .datagram d } }
      state := { protocol := .route, port := 42, config := {}, seq := 7 } }
    let sent : Script := { c.endpoint with sent := [[9]] }
    Transport.send [[9]] c.endpoint = (.ok (), sent) ∧
      Transport.peek sent = (.ok (some refusal.data), sent) ∧ Unhindered sent ∧
      (postChecked [9] c).1 = .error (.kernel 95 none) ∧
      (∃ log, Looked (some refusal.data) (.error (.kernel 95 none)) log) ∧
      waiting (postChecked [9] c).2.endpoint = [refusal, other] := by
  intro refusal other c sent
  have hsend : Transport.send [[9]] c.endpoint = (.ok (), sent) := rfl
  have hpeek : Transport.peek sent = (.ok (some refusal.data), sent) := rfl
  have hunhindered : Unhindered sent := ⟨rfl, by rintro _ ⟨⟩; rintro ⟨⟩⟩
  have hrefused : (postChecked [9] c).1 = .error (.kernel 95 none) :=
    eq_error_of_failure? (by decide +kernel)
  obtain ⟨-, ⟨-, hkept, -⟩, -, ⟨log, -, hfirst, -⟩, -⟩ := postChecked_looks hsend hpeek
  have hlooked := hfirst hunhindered
  rw [hrefused] at hlooked
  exact ⟨hsend, hpeek, hunhindered, hrefused, ⟨log, hlooked⟩, hkept⟩

end Connection
end Netlink
