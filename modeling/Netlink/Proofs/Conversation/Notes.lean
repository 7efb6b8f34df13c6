import Netlink.Proofs.Conversation.DumpPass

/-! # Notes of a dump

To tell what each consumer of a dump is handed, someone beside it notes its messages. The notes are
kept in the memory of the dump, and a dump whose consumers are noted is the same dump. -/

namespace Netlink

/-! ## Consumers with notes -/

namespace Consumer

variable {β γ : Type} {k : Consumer β}

/-- The same consumer, with someone beside it who notes what it is handed. -/
def noting (note : Message → γ → γ) (k : Consumer β) : Consumer (β × γ) where
  clears := k.clears
  accept m s :=
    let ⟨(result, memory), log⟩ := k.accept m s.1
    ⟨(result, (memory, note m s.2)), log⟩

theorem accept_noting (note : Message → γ → γ) {m : Message} {s : β × γ}
    {result : Except Error Unit} {memory : β} {log : List Event}
    (h : k.accept m s.1 = ⟨(result, memory), log⟩) :
    (k.noting note).accept m s = ⟨(result, (memory, note m s.2)), log⟩ := by
  simp only [noting, h]

/-- The consumer refuses nothing, whatever has come before. -/
def Willing (k : Consumer β) : Prop := ∀ m memory, (k.accept m memory).value.1 = .ok ()

theorem Willing.hand (h : k.Willing) (ms : List Message) (memory : β) :
    (k.hand ms memory).1 = .ok () := by
  induction ms generalizing memory with
  | nil => rfl
  | cons m ms ih =>
    obtain ⟨⟨result, memory'⟩, haccept⟩ : ∃ x, (k.accept m memory).value = x := ⟨_, rfl⟩
    have hresult := h m memory
    rw [haccept] at hresult
    cases hresult
    rw [Consumer.hand, haccept]
    exact ih memory'

theorem Willing.handed (h : k.Willing) (ms : List Message) (memory : β) :
    k.handed ms memory = ms := by
  induction ms generalizing memory with
  | nil => rfl
  | cons m ms ih =>
    obtain ⟨⟨result, memory'⟩, haccept⟩ : ∃ x, (k.accept m memory).value = x := ⟨_, rfl⟩
    have hresult := h m memory
    rw [haccept] at hresult
    cases hresult
    rw [Consumer.handed, haccept]
    exact congrArg (m :: ·) (ih memory')

theorem Willing.hand_noting (h : k.Willing) (note : Message → γ → γ) (ms : List Message)
    (s : β × γ) :
    ((k.noting note).hand ms s).2.2 = ms.foldl (fun notes m => note m notes) s.2 := by
  induction ms generalizing s with
  | nil => rfl
  | cons m ms ih =>
    obtain ⟨⟨⟨result, memory⟩, log⟩, haccept⟩ : ∃ x, k.accept m s.1 = x := ⟨_, rfl⟩
    have hresult := h m s.1
    rw [haccept] at hresult
    cases hresult
    rw [Consumer.hand, accept_noting note haccept]
    exact ih _

/-- Notes of what each consumer was handed, by its place among the consumers. -/
abbrev Notes := Nat → List Message

def noteAt (i : Nat) (m : Message) (notes : Notes) : Notes :=
  fun j => if j = i then notes j ++ [m] else notes j

theorem foldl_noteAt (i j : Nat) (ms : List Message) (notes : Notes) :
    ms.foldl (fun notes m => noteAt i m notes) notes j =
      if j = i then notes j ++ ms else notes j := by
  induction ms generalizing notes with
  | nil => simp
  | cons m ms ih =>
    rw [List.foldl_cons, ih]
    by_cases h : j = i <;> simp [noteAt, h]

/-- Consumers of whom the first has the place `i`, with what each is handed noted. -/
def notedFrom (i : Nat) : List (Consumer β) → List (Consumer (β × Notes))
  | [] => []
  | k :: ks => k.noting (noteAt i) :: notedFrom (i + 1) ks

theorem notedFrom_ne_nil {ks : List (Consumer β)} (h : ks ≠ []) (i : Nat) : notedFrom i ks ≠ [] := by
  cases ks with
  | nil => exact absurd rfl h
  | cons k ks => exact List.cons_ne_nil _ _

end Consumer

namespace Dump

open Consumer (Notes noteAt notedFrom)

variable {β γ : Type} {d : Datagram}

/-! ## Noting changes nothing -/

def Progress.map (f : γ → β) (p : Progress γ) : Progress β := ⟨p.state, f p.memory, p.found⟩

def Walked.map (f : γ → β) : Walked γ → Walked β
  | .through p => .through (p.map f)
  | .atDone p => .atDone (p.map f)
  | .over c memory result => .over c (f memory) result

theorem deliver_noting (note : Message → γ → γ) (k : Consumer β) (sender : UInt32)
    (fs : List Frame) (p : Progress (β × γ)) :
    (deliver (k.noting note) sender fs p).map Prod.fst = deliver k sender fs (p.map Prod.fst) := by
  induction fs generalizing p with
  | nil => rfl
  | cons f fs ih =>
    let m := f.message sender
    cases hours : related p.state.port p.state.dumpSeq m with
    | false =>
      rw [deliver_foreign hours, deliver_foreign (p := p.map Prod.fst) hours]
      exact ih _
    | true =>
      cases hdone : f.header.isDone with
      | true =>
        rw [deliver_done hours hdone, deliver_done (p := p.map Prod.fst) hours hdone]
        rfl
      | false =>
        cases herror : f.header.isError with
        | true =>
          rw [deliver_error hours hdone herror,
            deliver_error (p := p.map Prod.fst) hours hdone herror]
          rfl
        | false =>
          obtain ⟨⟨⟨result, memory⟩, log⟩, haccept⟩ :
            ∃ x, k.accept (m.clearing k.clears) p.memory.1 = x := ⟨_, rfl⟩
          have hplain : k.accept (m.clearing k.clears) (p.map Prod.fst).memory =
              ⟨(result, memory), log⟩ := haccept
          rw [deliver_object hours hdone herror,
            deliver_object (p := p.map Prod.fst) hours hdone herror, hplain]
          have hnoting := Consumer.accept_noting note haccept
          change (k.noting note).accept (m.clearing (k.noting note).clears) p.memory = _ at hnoting
          rw [hnoting]
          cases result with
          | error e => rfl
          | ok u => exact ih _

theorem deliverAll_noted (w : Frame.Walk) (ks : List (Consumer β)) (i : Nat)
    (p : Progress (β × Notes)) :
    (deliverAll d w (notedFrom i ks) p).map Prod.fst = deliverAll d w ks (p.map Prod.fst) := by
  induction ks generalizing i p with
  | nil => rfl
  | cons k ks ih =>
    have hwalk := deliver_noting (noteAt i) k d.sender w.frames p
    rw [notedFrom, deliverAll, deliverAll, ← hwalk]
    cases deliver (k.noting (noteAt i)) d.sender w.frames p with
    | «over» c memory result => rfl
    | atDone q => exact ih (i + 1) q
    | through q =>
      dsimp only [Walked.map]
      cases if d.truncated then none else w.error? with
      | some e => rfl
      | none => exact ih (i + 1) q

theorem isEmpty_notedFrom (i : Nat) (ks : List (Consumer β)) :
    (notedFrom i ks).isEmpty = ks.isEmpty := by
  cases ks <;> rfl

theorem step_noted (ks : List (Consumer β)) (d : Datagram) (c : Conversation)
    (s : β × Notes) :
    (step (notedFrom 0 ks) d c s).map Prod.fst = step ks d c s.1 := by
  rcases hrecord : c.record d.data with ⟨e | _, c₀⟩
  · unfold step
    rw [hrecord]
    rfl
  · have hwalks := deliverAll_noted (Frame.walk d.data) ks 0 (d := d) ⟨c₀, s, {}⟩
    change _ = deliverAll d (Frame.walk d.data) ks ⟨c₀, s.1, {}⟩ at hwalks
    have hconclude : ∀ p : Progress (β × Notes),
        (conclude (notedFrom 0 ks) d p).map Prod.fst = conclude ks d (p.map Prod.fst) := by
      intro p
      unfold conclude
      rw [isEmpty_notedFrom]
      dsimp only [Progress.map]
      split
      · split <;> rfl
      · split
        · rfl
        · split <;> rfl
    rw [step_eq hrecord, step_eq hrecord, ← hwalks]
    cases deliverAll d (Frame.walk d.data) (notedFrom 0 ks) ⟨c₀, s, {}⟩ with
    | «over» c memory result => rfl
    | atDone q => exact hconclude q
    | through q => exact hconclude q

/-- A dump whose consumers are noted is the same dump. -/
theorem readDump_noted {σ : Type} [Transport σ] (ks : List (Consumer β)) (c : Connection σ)
    (memory : β) (notes : Notes) :
    let noted := Connection.readDump (notedFrom 0 ks) (memory, notes) c
    Connection.readDump ks memory c = ((noted.1.1, noted.1.2.1), noted.2) := by
  intro noted
  have hstep : ∀ d c s, ((reader (notedFrom 0 ks)).step d c s).map Prod.fst =
      (reader ks).step d c s.1 := step_noted ks
  exact Connection.drain_map (f := Prod.fst) rfl hstep c (memory, notes)

end Dump
end Netlink
