import Netlink.Proofs.Draft.Writing

/-! # What a run leaves in the header

Of the steps that build a message only three touch its header, apart from the length: they set the
flags, the number and the port. All others, whether they succeed or fail, touch the body only. -/

namespace Netlink.Draft

namespace Buffer

/-- The buffer before anything was written. -/
def blank (b : Buffer) : Buffer := { b with bytes := [] }

theorem blank_of_setLength {b b' : Buffer} {offset length : Nat}
    (h : b.setLength offset length = .ok b') : b'.blank = b.blank := by
  unfold setLength at h
  split at h
  · contradiction
  · rw [← Except.ok.inj h]
    rfl

end Buffer

/-- The draft before anything was written behind its header. -/
def blank (d : Draft) : Draft := { d with body := d.body.blank }

theorem blank_of_body {d : Draft} {b : Buffer} (h : b.blank = d.body.blank) :
    blank { d with body := b } = d.blank := by
  simp only [blank, h]

theorem blank_extend (d : Draft) (bs : Bytes) : (d.extend bs).blank = d.blank := rfl

theorem blank_of_addRaw {d d' : Draft} {data : Bytes} (h : d.addRaw data = .ok d') :
    d'.blank = d.blank := by
  obtain ⟨added, rfl⟩ := exists_extend_of_addRaw h
  exact blank_extend ..

theorem blank_of_add {d d' : Draft} {a : Attribute} (h : d.add a = .ok d') :
    d'.blank = d.blank := by
  obtain ⟨added, rfl⟩ := exists_extend_of_add h
  exact blank_extend ..

theorem blank_of_addNest {d d' : Draft} {type : UInt16} {mark : Mark}
    (h : d.addNest type = .ok (mark, d')) : d'.blank = d.blank := by
  obtain ⟨-, added, rfl⟩ := exists_extend_of_addNest h
  exact blank_extend ..

theorem blank_of_openCompat {d d' : Draft} {type : UInt16} {data : Bytes} {mark : CompatMark}
    (h : d.openCompat type data = (.ok mark, d')) : d'.blank = d.blank := by
  obtain ⟨outer, houter, hinner, -⟩ := openCompat_eq_ok_iff.mp h
  exact (blank_of_addNest hinner).trans (blank_of_add houter)

theorem blank_closeNest (d : Draft) (mark : Mark) : (d.closeNest mark).2.blank = d.blank := by
  unfold closeNest
  dsimp only
  split
  · rename_i body hbody
    exact blank_of_body (Buffer.blank_of_setLength hbody)
  · rfl

theorem blank_closeCompat (d : Draft) (mark : CompatMark) :
    (d.closeCompat mark).2.blank = d.blank := by
  obtain ⟨b, hb, hcases⟩ := closeCompat_cases d mark
  have hbase : (if d.body.sizeFrom mark.inner.offset = Attribute.headerSize then
      d.body.cut mark.inner.offset else d.body).blank = d.body.blank := by
    split <;> rfl
  rw [hb]
  apply blank_of_body
  rcases hcases with ⟨-, rfl⟩ | ⟨-, b₁, hb₁, rfl | ⟨_, length, hb₂⟩⟩
  · exact hbase
  · exact (Buffer.blank_of_setLength hb₁).trans hbase
  · exact (Buffer.blank_of_setLength hb₂).trans ((Buffer.blank_of_setLength hb₁).trans hbase)

/-! ## Steps -/

namespace Step

/-- The flags that a step sets. -/
def flags? : Step → Option UInt16
  | .setFlags flags => some flags
  | _ => none

/-- The number that a step sets. -/
def seq? : Step → Option UInt32
  | .setSeq seq => some seq
  | _ => none

/-- The port that a step sets. -/
def pid? : Step → Option UInt32
  | .setPid pid => some pid
  | _ => none

end Step

/-- What the steps set last, or else what there was first. -/
def lastSet {α : Type} (set? : Step → Option α) (steps : List Step) (first : α) : α :=
  (steps.filterMap set?).getLastD first

theorem lastSet_cons {α : Type} (set? : Step → Option α) (s : Step) (steps : List Step)
    (first : α) : lastSet set? (s :: steps) first = lastSet set? steps ((set? s).getD first) := by
  unfold lastSet
  cases h : set? s with
  | none => rw [List.filterMap_cons_none h, Option.getD_none]
  | some a => rw [List.filterMap_cons_some h, List.getLastD_cons, Option.getD_some]

theorem blank_settled {w : Work} {x : Except Error Draft}
    (h : ∀ d, x = .ok d → d.blank = w.draft.blank) :
    (w.settled x).2.draft.blank = w.draft.blank := by
  cases x with
  | error e => rfl
  | ok d => exact h d rfl

theorem blank_settleOpen {w : Work} {draft : Draft} (outcome : Except Error AnyMark)
    (h : draft.blank = w.draft.blank) :
    (w.settleOpen outcome draft).2.draft.blank = w.draft.blank := by
  cases outcome with
  | error e => exact h
  | ok mark => exact h

/-- One step changes the settings it names, whether it succeeds or fails. -/
theorem blank_step (w : Work) (s : Step) :
    (w.step s).2.draft.blank = { w.draft.blank with
      flags := s.flags?.getD w.draft.flags
      seq := s.seq?.getD w.draft.seq
      pid := s.pid?.getD w.draft.pid } := by
  cases s with
  | appendRaw data =>
    rw [Work.step_appendRaw]
    exact blank_settled fun d hd => blank_of_addRaw hd
  | append a =>
    rw [Work.step_append]
    exact blank_settled fun d hd => blank_of_add hd
  | appendTree type capacity steps =>
    rw [Work.step_appendTree]
    refine blank_settled fun d hd => ?_
    obtain ⟨work, _, hraw⟩ := bind_eq_ok.mp hd
    exact blank_of_addRaw hraw
  | openNest type =>
    rw [Work.step_openNest]
    split
    · rename_i mark draft hopen
      exact blank_settleOpen _ (blank_of_addNest hopen)
    · rfl
  | openCompat type data =>
    rw [Work.step_openCompat]
    split
    · rename_i mark draft hopen
      exact blank_settleOpen _ (blank_of_openCompat hopen)
    · rfl
  | close number =>
    unfold Work.step
    dsimp only
    split
    · rfl
    · exact blank_closeNest ..
    · exact blank_closeCompat ..
  | setFlags flags => rfl
  | setSeq seq => rfl
  | setPid pid => rfl
  | refuse reason => rfl

/-- A run leaves the settings that its steps set last. -/
theorem blank_run (w : Work) (steps : List Step) :
    (w.run steps).draft.blank = { w.draft.blank with
      flags := lastSet Step.flags? steps w.draft.flags
      seq := lastSet Step.seq? steps w.draft.seq
      pid := lastSet Step.pid? steps w.draft.pid } := by
  induction steps generalizing w with
  | nil => rfl
  | cons s steps ih =>
    have hstep := blank_step w s
    have hflags := congrArg Draft.flags hstep
    have hseq := congrArg Draft.seq hstep
    have hpid := congrArg Draft.pid hstep
    simp only [blank] at hflags hseq hpid
    rw [show w.run (s :: steps) = (w.step s).2.run steps from rfl, ih, hstep, hflags, hseq, hpid]
    simp only [lastSet_cons]

end Netlink.Draft
