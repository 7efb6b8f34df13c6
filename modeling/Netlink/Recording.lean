import Netlink.Conversation.State
import Netlink.Message.Frame

/-! # Recorded dumps

A recording is what a sink took from the datagrams of a dump: messages one behind another, each with
its padding. Replaying hands them to someone in order, as if the kernel had just sent them. A record
ends the replay if its length cannot be right or if a part of it, its padding included, is
missing. -/

namespace Netlink.Recording

def maxRecord : Nat := 16384

def admits (length : Nat) : Bool := headerSize ≤ length && length ≤ maxRecord

/-- The first message of a recording, and what follows its padding. -/
def next? (bs : Bytes) : Option (Bytes × Bytes) :=
  match Wire.split? 4 bs with
  | none => none
  | some (front, _) =>
    let length := (Wire.word32 front).toNat
    if admits length then
      match Wire.split? (Wire.align4 length) bs with
      | none => none
      | some (record, rest) => some (record.take length, rest)
    else none

theorem length_of_next? {bs message rest : Bytes} (h : next? bs = some (message, rest)) :
    rest.length < bs.length := by
  unfold next? at h
  split at h
  · contradiction
  · rename_i front _ _
    dsimp only at h
    split at h
    · rename_i hadmits
      split at h
      · contradiction
      · rename_i hsplit
        have hl := Wire.length_of_split? hsplit
        simp only [Option.some.injEq, Prod.mk.injEq] at h
        have hlow : headerSize ≤ (Wire.word32 front).toNat := by
          simp only [admits, Bool.and_eq_true, decide_eq_true_eq] at hadmits
          exact hadmits.1
        have hpad := Wire.le_align4 (Wire.word32 front).toNat
        simp only [headerSize] at hlow
        rw [← h.2]
        omega
    · contradiction

/-- Why no message can be taken off the front of `rest`, which stands at `offset`. -/
def fault (offset : Nat) (rest : Bytes) : Error :=
  match Wire.split? headerSize rest with
  | none => .truncated headerSize rest.length
  | some (front, _) =>
    let length := (Header.ofBytes front).length.toNat
    if admits length then .truncated (Wire.align4 length) rest.length
    else .framing (.malformedRecord length offset)

/-- Hands the messages of a recording to someone, up to the first failure. The result is how many
were handed over. -/
def replayFrom {β : Type} (accept : Message → β → Handled β) (offset count : Nat) (bs : Bytes)
    (memory : β) : Handled β × Nat :=
  if bs.isEmpty then (.taken memory, count)
  else
    match _h : next? bs with
    | none => (.refused (fault offset bs) memory, count)
    | some (message, rest) =>
      let ⟨(result, memory), log⟩ := accept ⟨0, Header.ofBytes message, message⟩ memory
      match result with
      | .error e => (⟨(.error e, memory), log⟩, count)
      | .ok () =>
        let (⟨value, more⟩, total) :=
          replayFrom accept (offset + Wire.align4 message.length) (count + 1) rest memory
        (⟨value, log ++ more⟩, total)
termination_by bs.length
decreasing_by exact length_of_next? _h

/-- Hands the messages of a recording to someone. A replay that comes to the end is reported, and
its result is how many messages there are. -/
def replay {β : Type} (accept : Message → β → Handled β) (bs : Bytes) (memory : β) :
    Logged (Except Error Nat × β) :=
  match replayFrom accept 0 0 bs memory with
  | (⟨(.ok (), memory), log⟩, count) => ⟨(.ok count, memory), log ++ [.replayed count bs.length]⟩
  | (⟨(.error e, memory), log⟩, _) => ⟨(.error e, memory), log⟩

end Netlink.Recording
