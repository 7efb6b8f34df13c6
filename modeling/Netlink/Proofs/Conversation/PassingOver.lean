import Netlink.Proofs.Conversation.Decision
import Netlink.Proofs.Conversation.DumpPass

/-! # Messages for someone else

Messages that carry none of the numbers that are waited for might as well not be there: without them
an exchange comes to the same decision, and a walk for a dump to the same end. They only show in the
log. -/

namespace Netlink

/-! ## Exchanges -/

namespace Exchange

/-- Messages that answer none of the requests might as well not be there, and what has been reported
makes no difference either. -/
theorem decision_filter (x : Exchange) {sender : UInt32} {p : Frame → Bool} {fs : List Frame}
    (h : ∀ f ∈ fs, p f = false → x.answers sender f.header = false) (c c' : Conversation) :
    (x.judge sender (fs.filter p) c).2 = (x.judge sender fs c').2 := by
  induction fs generalizing c c' with
  | nil => rfl
  | cons f fs ih =>
    have hrest := ih fun f hf => h f (List.mem_cons_of_mem _ hf)
    cases hp : p f with
    | false =>
      have hforeign := h f List.mem_cons_self hp
      rw [List.filter_cons_of_neg (by simp [hp]), judge, hforeign]
      exact hrest _ _
    | true =>
      rw [List.filter_cons_of_pos hp, judge, judge]
      split
      · exact hrest _ _
      · split
        · cases ErrorReply.decode f.payload with
          | error e => rfl
          | ok reply =>
            dsimp only
            split
            · split
              · rfl
              · split
                · rfl
                · exact hrest _ _
            · rfl
        · split
          · rfl
          · exact hrest _ _

/-- Messages with these numbers answer nothing that is waited for, and the decision is the same
without them. -/
structure PassesOver (x : Exchange) (stale : List UInt32) : Prop where
  answers : ∀ sender h, h.seq ∈ stale → x.answers sender h = false
  decision : ∀ sender fs c c',
    (x.judge sender (fs.filter fun f => f.header.seq ∉ stale) c).2 = (x.judge sender fs c').2

theorem passesOver {x : Exchange} {stale : List UInt32}
    (h : ∀ number ∈ stale, inWindow x.last x.count number = false) : x.PassesOver stale := by
  have hanswers : ∀ sender h, h.seq ∈ stale → x.answers sender h = false := by
    intro sender header hstale
    rw [Exchange.answers, h header.seq hstale, Bool.and_false]
  refine ⟨hanswers, fun sender fs c c' => decision_filter x ?_ c c'⟩
  intro f _ hstale
  exact hanswers sender f.header (by simpa using hstale)

end Exchange

/-! ## Dumps -/

def Conversation.unlogged (c : Conversation) : Conversation := { c with log := [] }

theorem Conversation.eq_of_unlogged {c c' : Conversation} (h : c'.unlogged = c.unlogged) :
    c'.port = c.port ∧ c'.dumpSeq = c.dumpSeq ∧ c' = { c with log := c'.log } := by
  have hback := congrArg (fun c : Conversation => { c with log := c'.log }) h
  simp only [unlogged, mk.injEq] at h
  exact ⟨h.2.1, h.2.2.2.2.1, hback⟩

namespace Dump

variable {β : Type}

def Progress.unlogged (p : Progress β) : Progress β := { p with state := p.state.unlogged }

def Walked.unlogged : Walked β → Walked β
  | .through p => .through p.unlogged
  | .atDone p => .atDone p.unlogged
  | .over c memory result => .over c.unlogged memory result

theorem unlogged_onError {c c' : Conversation} (hc : c'.unlogged = c.unlogged) (h : Header)
    (payload : Bytes) :
    (onError c' h payload).1 = (onError c h payload).1 ∧
      (onError c' h payload).2.unlogged = (onError c h payload).2.unlogged := by
  obtain ⟨log, rfl⟩ : ∃ log, c' = { c with log } := ⟨c'.log, (Conversation.eq_of_unlogged hc).2.2⟩
  unfold onError
  cases ErrorReply.decode payload with
  | error e => exact ⟨rfl, rfl⟩
  | ok reply =>
    dsimp only
    split
    · exact ⟨rfl, rfl⟩
    · refine ⟨rfl, ?_⟩
      cases hquiet : c.config.quiet with
      | true =>
        simp only [Conversation.report, hquiet, if_true]
        rfl
      | false =>
        simp only [Conversation.report, hquiet, Bool.false_eq_true, if_false]
        cases (Ack.ofError h payload).value with
        | none => rfl
        | some a =>
          cases hreports : c.handler.reports a with
          | true =>
            simp only [Conversation.acknowledge, hreports, if_true]
            rfl
          | false =>
            simp only [Conversation.acknowledge, hreports, Bool.false_eq_true, if_false]
            rfl

/-- Messages that do not belong to the dump might as well not be there, but for the log. -/
theorem deliver_filter {k : Consumer β} {sender : UInt32} {keep : Frame → Bool} {fs : List Frame}
    {p p' : Progress β} (hp : p'.unlogged = p.unlogged)
    (h : ∀ f ∈ fs, keep f = false →
      related p.state.port p.state.dumpSeq (f.message sender) = false) :
    (deliver k sender (fs.filter keep) p').unlogged = (deliver k sender fs p).unlogged := by
  induction fs generalizing p p' with
  | nil => exact congrArg Walked.through hp
  | cons f fs ih =>
    obtain ⟨c, memory, found⟩ := p
    obtain ⟨c', memory', found'⟩ := p'
    obtain ⟨hc, rfl, rfl⟩ := Progress.mk.inj hp
    change c'.unlogged = c.unlogged at hc
    obtain ⟨hport, hnumber, -⟩ := Conversation.eq_of_unlogged hc
    let m := f.message sender
    have hrest : ∀ {q q' : Progress β}, q.state.bare = c.bare → q'.unlogged = q.unlogged →
        (deliver k sender (fs.filter keep) q').unlogged = (deliver k sender fs q).unlogged := by
      intro q q' hbare hq
      obtain ⟨-, hport, -, hnumber, -⟩ := Conversation.eq_of_bare hbare
      refine ih hq fun f hf hkeep => ?_
      rw [hport, hnumber]
      exact h f (List.mem_cons_of_mem _ hf) hkeep
    -- what is left out is not of the dump, and what is of the dump meets the same settings
    cases hours : related c.port c.dumpSeq m with
    | false =>
      rw [deliver_foreign (p := ⟨c, memory', found'⟩) hours]
      cases hkeep : keep f with
      | false =>
        rw [List.filter_cons_of_neg (by simp [hkeep])]
        exact hrest rfl hp
      | true =>
        rw [← hport, ← hnumber] at hours
        rw [List.filter_cons_of_pos hkeep, deliver_foreign (p := ⟨c', memory', found'⟩) hours]
        exact hrest rfl hp
    | true =>
      have hkeep : keep f = true := by
        rw [← Bool.not_eq_false]
        intro hkeep
        exact absurd hours (by rw [h f List.mem_cons_self hkeep]; decide)
      have hours' : related c'.port c'.dumpSeq m = true := by rw [hport, hnumber, hours]
      rw [List.filter_cons_of_pos hkeep]
      cases hdone : f.header.isDone with
      | true =>
        rw [deliver_done hours' hdone, deliver_done hours hdone]
        exact congrArg (fun c => Walked.atDone ⟨c, _, _⟩) hc
      | false =>
        cases herror : f.header.isError with
        | true =>
          obtain ⟨hresult, hstate⟩ := unlogged_onError hc (f.header.clearing k.clears) f.payload
          rw [deliver_error hours' hdone herror, deliver_error hours hdone herror, hresult]
          exact congrArg (fun c => Walked.over c _ _) hstate
        | false =>
          rw [deliver_object hours' hdone herror, deliver_object hours hdone herror]
          obtain ⟨⟨⟨result, memory⟩, log⟩, haccept⟩ :
            ∃ x, k.accept (m.clearing k.clears) memory' = x := ⟨_, rfl⟩
          rw [haccept]
          cases result with
          | error e => exact congrArg (fun c => Walked.over c _ _) hc
          | ok u => exact hrest rfl (congrArg (fun c => (⟨c, _, _⟩ : Progress β)) hc)

/-- Messages with these numbers do not belong to the dump, and a walk comes to the same without them,
whenever the dump is read. -/
structure PassesOver (c : Conversation) (stale : List UInt32) : Prop where
  belongs : ∀ now : Conversation, now.settled = c.settled →
    ∀ sender h, h.seq ∈ stale → belongs now sender h = false
  walk : ∀ {β : Type} (k : Consumer β) sender fs (p : Progress β), p.state.settled = c.settled →
    (deliver k sender (fs.filter fun f => f.header.seq ∉ stale) p).unlogged =
      (deliver k sender fs p).unlogged

theorem passesOver {c : Conversation} {stale : List UInt32} (h : c.dumpSeq ∉ stale) :
    PassesOver c stale := by
  have hbelongs : ∀ now : Conversation, now.settled = c.settled →
      ∀ sender h, h.seq ∈ stale → belongs now sender h = false := by
    intro now hnow sender header hstale
    obtain ⟨-, -, -, -, hnumber, -⟩ := Conversation.eq_of_settled hnow
    have hother : header.seq ≠ now.dumpSeq := by
      intro hsame
      rw [hsame, hnumber] at hstale
      exact h hstale
    rw [belongs, decide_eq_false hother, Bool.and_false]
  refine ⟨hbelongs, fun k sender fs p hp => deliver_filter rfl ?_⟩
  intro f _ hstale
  exact hbelongs p.state hp sender f.header (by simpa using hstale)

end Dump
end Netlink
