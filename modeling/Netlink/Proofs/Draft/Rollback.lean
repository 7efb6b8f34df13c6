import Netlink.Proofs.Draft.Room
import Netlink.Proofs.Draft.WellNested

/-! # Failures leave nothing behind

A step that fails to append something, or to open a nest, changes nothing. A nest that fails to
close takes along all that was written since it was opened, so that the message is what it was
before, but for settings of its header; and from there on the same steps build the same message as
if the nest had never been opened. -/

namespace Netlink.Draft

theorem eq_of_blank {d d' : Draft} (hblank : d.blank = d'.blank) (hbody : d.body = d'.body) :
    d = d' := by
  obtain ⟨htype, hflags, hseq, hpid, -⟩ := Draft.mk.inj hblank
  obtain ⟨type, flags, seq, pid, body⟩ := d
  obtain ⟨type', flags', seq', pid', body'⟩ := d'
  cases htype
  cases hflags
  cases hseq
  cases hpid
  cases hbody
  rfl

namespace Work

/-! ## Steps inside a nest -/

/-- The steps close no nest with a number below `n`. -/
def ClosesFrom (n : Nat) (w : Work) : List Step → Prop
  | [] => True
  | s :: steps => (∀ k ∈ w.closes? s, n ≤ k) ∧ (w.step s).2.ClosesFrom n steps

/-- The body begins with that of a buffer, the nests begin with some that were there before, and the
headers of all others stand behind the buffer. -/
structure Over (b : Buffer) (held : Nests AnyMark) (w : Work) : Prop where
  body : ∃ added, w.draft.body = b.extend added
  nests : ∃ later, w.nests = held ++ later ∧ ∀ nest ∈ later, nest.1.Behind b.bytes.length

theorem Over.step {b : Buffer} {held : Nests AnyMark} {w : Work} {s : Step} (h : w.Over b held)
    (hs : ∀ k ∈ w.closes? s, held.length ≤ k) : (w.step s).2.Over b held := by
  obtain ⟨⟨added, hbody⟩, later, hnests, hbehind⟩ := h
  cases hturn : w.step s with
  | mk outcome w' =>
    cases hturn ▸ w.turn s with
    | wrote more _ body nests =>
      refine ⟨⟨added ++ more, ?_⟩, later, nests.trans hnests, hbehind⟩
      rw [body, hbody, Buffer.extend_extend]
    | opened more mark body nests _ behind =>
      refine ⟨⟨added ++ more, ?_⟩, later ++ [(mark, false)], ?_, fun nest hnest => ?_⟩
      · rw [body, hbody, Buffer.extend_extend]
      · rw [nests, hnests, List.append_assoc]
      · rcases List.mem_append.mp hnest with hnest | hnest
        · exact hbehind nest hnest
        · rw [List.mem_singleton.mp hnest]
          refine behind.mono (Nat.le_trans ?_ (Wire.le_align4 _))
          rw [hbody, Buffer.extend, List.length_append]
          exact Nat.le_add_right ..
    | closed k mark _ closes nest draft nests =>
      have hk : held.length ≤ k := hs k closes
      rw [hnests, List.getElem?_append_right hk] at nest
      have hmark : mark.Behind b.bytes.length := hbehind _ (List.mem_of_getElem? nest)
      refine ⟨draft ▸ exists_extend_close hbody hmark, later.set (k - held.length) (mark, true), ?_,
        fun nest hnest => ?_⟩
      · rw [nests, hnests, List.set_append_right _ _ hk]
      · rcases List.mem_or_eq_of_mem_set hnest with hold | rfl
        · exact hbehind nest hold
        · exact hmark

theorem Over.run {b : Buffer} {held : Nests AnyMark} {w : Work} {steps : List Step}
    (h : w.Over b held) (hs : w.ClosesFrom held.length steps) : (w.run steps).Over b held := by
  induction steps generalizing w with
  | nil => exact h
  | cons s steps ih => exact ih (h.step hs.1) hs.2

end Work

/-! ## Settings alone -/

/-- The step does nothing but set a field of the header. -/
def Step.isSetting : Step → Bool
  | .setFlags _ | .setSeq _ | .setPid _ => true
  | _ => false

theorem lastSet_settings {α : Type} {set? : Step → Option α}
    (h : ∀ s, s.isSetting = false → set? s = none) (steps : List Step) (first : α) :
    lastSet set? (steps.filter Step.isSetting) first = lastSet set? steps first := by
  have hsame : (fun s => if s.isSetting then set? s else none) = set? := by
    funext s
    cases hs : s.isSetting with
    | true => rfl
    | false => exact (h s hs).symm
  rw [lastSet, lastSet, List.filterMap_filter, hsame]

namespace Work

/-- Of all the steps the settings alone leave the body and the nests as they were. -/
theorem run_settings (w : Work) (steps : List Step) :
    (w.run (steps.filter Step.isSetting)).draft.body = w.draft.body ∧
      (w.run (steps.filter Step.isSetting)).nests = w.nests := by
  induction steps generalizing w with
  | nil => exact ⟨rfl, rfl⟩
  | cons s steps ih =>
    cases s with
    | setFlags flags => exact ih { w with draft := w.draft.setFlags flags }
    | setSeq seq => exact ih { w with draft := w.draft.setSeq seq }
    | setPid pid => exact ih { w with draft := w.draft.setPid pid }
    | _ => exact ih w

/-- They leave the same header as all the steps. -/
theorem blank_run_settings (w : Work) (steps : List Step) :
    (w.run (steps.filter Step.isSetting)).draft.blank = (w.run steps).draft.blank := by
  rw [blank_run, blank_run, lastSet_settings, lastSet_settings, lastSet_settings]
  all_goals
    intro s hs
    cases s <;> first | rfl | cases hs

/-! ## Closed nests among the others -/

/-- The work with more nests behind the first `n`. -/
def spliced (n : Nat) (others : Nests AnyMark) (w : Work) : Work :=
  { w with nests := Nests.spliced n others w.nests }

end Work

/-- The step as it has to be taken when `m` nests are put behind the first `n`. -/
def Step.moved (n m : Nat) : Step → Step
  | .close number => .close (number.map (Nests.moved n m))
  | s => s

namespace Work

section Splicing

variable {n : Nat} {others : Nests AnyMark} {w : Work}

theorem settled_spliced (x : Except Error Draft) :
    ((w.spliced n others).settled x).2 = (w.settled x).2.spliced n others := by
  cases x <;> rfl

theorem settleOpen_spliced (hn : n ≤ w.nests.length) (outcome : Except Error AnyMark)
    (draft : Draft) :
    ((w.spliced n others).settleOpen outcome draft).2 =
      (w.settleOpen outcome draft).2.spliced n others := by
  cases outcome with
  | error e => rfl
  | ok mark =>
    simp only [settleOpen, spliced, Nests.spliced_append hn]

theorem step_spliced (hn : n ≤ w.nests.length) (hclosed : ∀ nest ∈ others, nest.2 = true)
    (s : Step) :
    ((w.spliced n others).step (s.moved n others.length)).2 = (w.step s).2.spliced n others := by
  cases s with
  | appendRaw data =>
    change ((w.spliced n others).step (.appendRaw data)).2 = _
    rw [step_appendRaw, step_appendRaw]
    exact settled_spliced _
  | append a =>
    change ((w.spliced n others).step (.append a)).2 = _
    rw [step_append, step_append]
    exact settled_spliced _
  | appendTree type capacity steps =>
    change ((w.spliced n others).step (.appendTree type capacity steps)).2 = _
    rw [step_appendTree, step_appendTree]
    exact settled_spliced _
  | openNest type =>
    change ((w.spliced n others).step (.openNest type)).2 = _
    have hdraft : (w.spliced n others).draft = w.draft := rfl
    rw [step_openNest, step_openNest, hdraft]
    cases w.draft.addNest type with
    | error e => rfl
    | ok opened => exact settleOpen_spliced hn ..
  | openCompat type data => exact settleOpen_spliced hn ..
  | close number =>
    have htake := Nests.take?_spliced hn hclosed number
    rw [Step.moved, step_close, step_close, spliced, htake]
    cases w.nests.take? number with
    | none => rfl
    | some taken => rfl
  | setFlags flags => rfl
  | setSeq seq => rfl
  | setPid pid => rfl
  | refuse reason => rfl

/-- The same steps build the same message. -/
theorem run_spliced (hn : n ≤ w.nests.length) (hclosed : ∀ nest ∈ others, nest.2 = true)
    (steps : List Step) :
    (w.spliced n others).run (steps.map (Step.moved n others.length)) =
      (w.run steps).spliced n others := by
  induction steps generalizing w with
  | nil => rfl
  | cons s steps ih =>
    rw [List.map_cons, show (w.spliced n others).run (s.moved n others.length :: _) =
      ((w.spliced n others).step (s.moved n others.length)).2.run _ from rfl,
      step_spliced hn hclosed, ih (Nat.le_trans hn (length_nests_step w s))]
    rfl

end Splicing

/-! ## A nest that fails to close -/

/-- The steps stay within the nest of number `n`: they close none that was opened before it, and leave
none open that was opened behind it. -/
structure Fills (n : Nat) (w : Work) (steps : List Step) : Prop where
  closesFrom : w.ClosesFrom n steps
  closed : ∀ nest ∈ (w.run steps).nests.drop (n + 1), nest.2 = true

theorem opened_of_step {w w₁ : Work} {s : Step} {n : Nat} (h : w.step s = (.ok (.opened n), w₁)) :
    n = w.nests.length ∧ s.isSetting = false ∧ ∃ added mark,
      w₁.draft.body = w.draft.body.extend added ∧ w₁.nests = w.nests ++ [(mark, false)] ∧
        mark.first = w.draft.body.front ∧ mark.Behind w.draft.body.front := by
  have hsetting : s.isSetting = false := by
    cases s <;> first | rfl | cases h
  have hturn := w.turn s
  rw [h] at hturn
  generalize houtcome : (Except.ok (Product.opened n) : Except Error Product) = outcome at hturn
  cases hturn with
  | wrote _ outcome_ne => exact absurd houtcome.symm (outcome_ne n)
  | opened added mark body nests first behind =>
    cases houtcome
    exact ⟨rfl, hsetting, added, mark, body, nests, first, behind⟩
  | closed _ mark => exact absurd houtcome.symm (close_ne_opened w.draft mark n)

/-- When a nest fails to close, the settings are those of the steps inside it; all else is as it was
before it was opened, and the nests behind it are closed. -/
theorem undone {w w₁ w₃ : Work} {s : Step} {inner : List Step} {n : Nat} {number : Option Nat}
    {e : Error} (ha : w.draft.body.Aligned) (hopen : w.step s = (.ok (.opened n), w₁))
    (hfills : w₁.Fills n inner) (hcloses : (w₁.run inner).closes? (.close number) = some n)
    (herror : (w₁.run inner).step (.close number) = (.error e, w₃)) :
    ∃ others, (∀ nest ∈ others, nest.2 = true) ∧
      w₃ = (w.run (inner.filter Step.isSetting)).spliced n others := by
  obtain ⟨rfl, hsetting, added, mark, hbody, hnests, hfirst, hbehind⟩ := opened_of_step hopen
  rw [ha.front] at hfirst hbehind
  -- the nest is the one behind those that were there, and its headers stand behind the body
  have hover : w₁.Over w.draft.body w.nests := by
    refine ⟨⟨added, hbody⟩, [(mark, false)], hnests, fun nest hnest => ?_⟩
    rw [List.mem_singleton.mp hnest]
    exact hbehind
  obtain ⟨⟨filled, hfilled⟩, later, hlater, -⟩ := hover.run hfills.closesFrom
  have hmark : w₁.nests[w.nests.length]?.map (·.1) = some mark := by
    rw [hnests, List.getElem?_concat_length]
    rfl
  obtain ⟨⟨mark', before⟩, hnest, hsame⟩ := Option.map_eq_some_iff.mp (mark_run inner hmark)
  obtain rfl : mark' = mark := hsame
  have htake : (w₁.run inner).nests.take? number =
      some (mark', (w₁.run inner).nests.set w.nests.length (mark', true)) := by
    have hmeant : (w₁.run inner).nests.meant? number = some w.nests.length := hcloses
    rw [Nests.take?_eq, hmeant, Option.bind_some, hnest]
    rfl
  have hlast := blank_step (w₁.run inner) (.close number)
  rw [herror] at hlast
  rw [step_close, htake] at herror
  obtain ⟨hfailed, rfl⟩ := Prod.mk.inj herror
  have hset : (w₁.run inner).nests.set w.nests.length (mark', true) =
      w.nests ++ later.set 0 (mark', true) := by
    rw [hlater, List.set_append_right _ _ (Nat.le_refl _), Nat.sub_self]
  refine ⟨later.set 0 (mark', true), fun nest hnest => ?_, ?_⟩
  · have hlater_closed : ∀ nest ∈ later.drop 1, nest.2 = true := by
      have hclosed := hfills.closed
      rwa [hlater, List.drop_append, List.drop_of_length_le (Nat.le_add_right ..),
        Nat.add_sub_cancel_left] at hclosed
    cases later with
    | nil => cases hnest
    | cons first behind =>
      rcases List.mem_cons.mp hnest with rfl | hnest
      · rfl
      · exact hlater_closed nest hnest
  · obtain ⟨hbody', hnests'⟩ := w.run_settings inner
    have hblank : (w.run (inner.filter Step.isSetting)).draft.blank =
        (w₁.run inner).draft.blank := by
      have hall := w.blank_run_settings (s :: inner)
      rw [List.filter_cons_of_neg (by rw [hsetting]; decide)] at hall
      rw [hall, show w.run (s :: inner) = (w.step s).2.run inner from rfl, hopen]
    have hdraft := eq_of_blank (hlast.trans hblank.symm)
      ((close_of_error hfilled hbehind hfirst hfailed).trans hbody'.symm)
    rw [spliced, hnests', Nests.spliced, List.take_length, List.drop_length, List.append_nil,
      ← hset, ← hdraft]

/-- A step that fails changes nothing, unless it was to close a nest. -/
theorem step_of_error {w : Work} {s : Step} {e : Error} (hs : ∀ number, s ≠ .close number)
    (h : (w.step s).1 = .error e) : (w.step s).2 = w := by
  have hsettled {x : Except Error Draft} (hx : (w.settled x).1 = .error e) :
      (w.settled x).2 = w := by
    cases x with
    | error e' => rfl
    | ok d => cases hx
  cases s with
  | appendRaw data =>
    rw [step_appendRaw] at h ⊢
    exact hsettled h
  | append a =>
    rw [step_append] at h ⊢
    exact hsettled h
  | appendTree type capacity steps =>
    rw [step_appendTree] at h ⊢
    exact hsettled h
  | openNest type =>
    rw [step_openNest] at h ⊢
    split
    · rename_i mark draft hopen
      rw [hopen] at h
      cases h
    · rfl
  | openCompat type data =>
    rw [step_openCompat] at h ⊢
    split
    · rename_i mark draft hopen
      rw [hopen] at h
      cases h
    · rfl
  | close number => exact absurd rfl (hs number)
  | setFlags flags => cases h
  | setSeq seq => cases h
  | setPid pid => cases h
  | refuse reason => rfl

end Work

/-- **Failures leave nothing behind.** A step that fails changes nothing, unless it was to close a
nest. If a nest fails to close after steps that stayed within it, the draft is what it was before the
nest was opened, but for the settings among these steps. All nests that were opened before are as
they were; those that were open can still be closed, if every step before closed the latest open
nest. And whatever steps follow, the draft becomes what it would have become if the nest had never
been opened. -/
theorem failures_undone {d₀ : Draft} {before : List Step} (hfresh : Fresh d₀)
    (hin : (Work.start d₀).ClosesInside before) :
    let w := (Work.start d₀).run before
    (∀ s e, (∀ number, s ≠ .close number) → (w.step s).1 = .error e → (w.step s).2 = w) ∧
      ∀ s n w₁ inner number e w₃,
        w.step s = (.ok (.opened n), w₁) → w₁.Fills n inner →
        (w₁.run inner).closes? (.close number) = some n →
        (w₁.run inner).step (.close number) = (.error e, w₃) →
        w₃.draft = { w.draft with
          flags := lastSet Step.flags? inner w.draft.flags
          seq := lastSet Step.seq? inner w.draft.seq
          pid := lastSet Step.pid? inner w.draft.pid } ∧
        w₃.nests.take n = w.nests ∧ (∀ nest ∈ w₃.nests.drop n, nest.2 = true) ∧
        ((Work.start d₀).ClosesLatest before →
          ∀ nest ∈ w₃.nests, nest.2 = false → nest.1.Inside w₃.draft.body) ∧
        ∀ rest, (w₃.run (rest.map (Step.moved n (w₃.nests.length - n)))).draft =
          (w.run (inner.filter Step.isSetting ++ rest)).draft := by
  intro w
  refine ⟨fun s e => Work.step_of_error, ?_⟩
  intro s n w₁ inner number e w₃ hopen hfills hcloses herror
  have hsound : w.Sound := (Work.sound_start hfresh).run hin
  obtain ⟨others, hclosed, hundone⟩ :=
    Work.undone hsound.body.aligned hopen hfills hcloses herror
  obtain ⟨rfl, -⟩ := Work.opened_of_step hopen
  obtain ⟨hbody, hnests⟩ := w.run_settings inner
  let u := w.run (inner.filter Step.isSetting)
  have hn : w.nests.length = u.nests.length := (congrArg List.length hnests).symm
  have hdraft : w₃.draft = u.draft := by rw [hundone, Work.spliced]
  have hnests₃ : w₃.nests = w.nests ++ others := by
    rw [hundone, Work.spliced, hnests, Nests.spliced, List.take_length, List.drop_length,
      List.append_nil]
  have hsettings : u.draft = { w.draft with
      flags := lastSet Step.flags? inner w.draft.flags
      seq := lastSet Step.seq? inner w.draft.seq
      pid := lastSet Step.pid? inner w.draft.pid } := by
    refine eq_of_blank ?_ hbody
    rw [w.blank_run_settings, blank_run]
    rfl
  refine ⟨hdraft.trans hsettings, ?_, ?_, ?_, ?_⟩
  · rw [hnests₃, List.take_left]
  · rw [hnests₃, List.drop_left]
    exact hclosed
  · intro hlatest nest hnest hopened
    rw [hnests₃] at hnest
    rw [hdraft, hbody]
    rcases List.mem_append.mp hnest with hnest | hnest
    · exact (Work.inside_of_closesLatest hfresh hlatest).2 nest hnest hopened
    · rw [hclosed nest hnest] at hopened
      cases hopened
  · intro rest
    have hcount : w₃.nests.length - w.nests.length = others.length := by
      rw [hnests₃, List.length_append, Nat.add_sub_cancel_left]
    rw [hcount, hundone, Work.run_spliced (Nat.le_of_eq hn) hclosed]
    simp only [u, Work.spliced, Work.run, List.foldl_append]

/-- A child can be written although it makes its nest too long to be closed. -/
theorem overflow {payload : Bytes} (h : payload.length = 65528) :
    let w : Work := ⟨⟨16, 5, 0, 0, ⟨16, [4, 0, 1, 0, 4, 0, 2, 0], 131072⟩⟩,
      [(.plain ⟨0⟩, false), (.plain ⟨4⟩, false)]⟩
    let filled := w.run [.setSeq 9, .append ⟨3, payload⟩]
    filled.nests = w.nests ∧
      (filled.step (.close none)).1 = .error (.invalidAttribute (.nestTooLong 65536)) := by
  intro w filled
  let d : Draft := ⟨16, 5, 9, 0, ⟨16, [4, 0, 1, 0], 131072⟩⟩
  let nest := AttributeHeader.encode ⟨4, 2⟩
  have ha : d.body.Aligned := by
    unfold Buffer.Aligned
    decide
  have hsize : Attribute.recordSize ⟨3, payload⟩ = 65532 := by
    rw [Attribute.recordSize, h]
    rfl
  have hlength : (Attribute.encode ⟨3, payload⟩).length = 65532 := by
    rw [Attribute.length_encode, hsize]
    rfl
  have happend : (d.extend nest).add ⟨3, payload⟩ =
      .ok (d.extend (nest ++ Attribute.encode ⟨3, payload⟩)) := by
    rw [← extend_extend]
    refine add_of_room (ha.extend_header ⟨4, 2⟩) ?_ ?_
    · rw [Attribute.Declarable, hsize]
      decide
    · rw [size_extend, hlength]
      decide
  have hclose := d.closeNest_extend ⟨4, 2⟩ (Attribute.encode ⟨3, payload⟩)
  rw [hlength, if_pos (by decide)] at hclose
  have hfilled : filled = ⟨d.extend (nest ++ Attribute.encode ⟨3, payload⟩), w.nests⟩ := by
    change ((Work.mk (d.extend nest) w.nests).step (.append ⟨3, payload⟩)).2 = _
    rw [Work.step_append, happend]
    rfl
  refine ⟨by rw [hfilled], ?_⟩
  rw [hfilled]
  exact congrArg (Except.map Product.closed ∘ Prod.fst) hclose

/-- A nest of 65536 bytes inside another one, with a number set on the way. -/
theorem failures_undone_sample :
    let d₀ := withCapacity 16 1 131072
    let before : List Step := [.setFlags 5, .openNest 1]
    let inner : List Step := [.setSeq 9, .append ⟨3, Wire.zeros 65528⟩]
    let rest : List Step := [.append ⟨6, [7]⟩, .close none]
    let w := (Work.start d₀).run before
    let w₁ := (w.step (.openNest 2)).2
    let w₃ := ((w₁.run inner).step (.close none)).2
    Fresh d₀ ∧ (Work.start d₀).ClosesInside before ∧
      w.step (.openNest 2) = (.ok (.opened 1), w₁) ∧ w₁.Fills 1 inner ∧
      (w₁.run inner).closes? (.close none) = some 1 ∧
      (w₁.run inner).step (.close none) = (.error (.invalidAttribute (.nestTooLong 65536)), w₃) ∧
      w₃.draft = ⟨16, 5, 9, 0, ⟨16, [4, 0, 1, 0], 131072⟩⟩ ∧
      (w₃.run rest).draft =
        ⟨16, 5, 9, 0, ⟨16, [12, 0, 1, 0, 5, 0, 6, 0, 7, 0, 0, 0], 131072⟩⟩ := by
  obtain ⟨hnests, hoverflow⟩ := overflow (Wire.length_zeros 65528)
  -- for a pair that is not to be evaluated
  have hpair {x : Except Error Product × Work} {e : Except Error Product} (h : x.1 = e) :
      x = (e, x.2) := Prod.ext h rfl
  have hfresh : Fresh (withCapacity 16 1 131072) := .withCapacity 16 1 131072
  have hbefore : (Work.start (withCapacity 16 1 131072)).run [.setFlags 5, .openNest 1] =
      ⟨⟨16, 5, 0, 0, ⟨16, [4, 0, 1, 0], 131072⟩⟩, [(.plain ⟨0⟩, false)]⟩ := by rfl
  have hopen : Work.step ⟨⟨16, 5, 0, 0, ⟨16, [4, 0, 1, 0], 131072⟩⟩, [(.plain ⟨0⟩, false)]⟩
      (.openNest 2) = (.ok (.opened 1), ⟨⟨16, 5, 0, 0, ⟨16, [4, 0, 1, 0, 4, 0, 2, 0], 131072⟩⟩,
        [(.plain ⟨0⟩, false), (.plain ⟨4⟩, false)]⟩) := by rfl
  have hrest : Work.run ⟨⟨16, 5, 0, 0, ⟨16, [4, 0, 1, 0], 131072⟩⟩, [(.plain ⟨0⟩, false)]⟩
      [.setSeq 9, .append ⟨6, [7]⟩, .close none] = ⟨⟨16, 5, 9, 0, ⟨16, [12, 0, 1, 0, 5, 0, 6, 0, 7,
        0, 0, 0], 131072⟩⟩, [(.plain ⟨0⟩, true)]⟩ := by rfl
  intro d₀ before inner rest w w₁ w₃
  have hin : (Work.start d₀).ClosesInside before := by decide
  have hopened : w.step (.openNest 2) = (.ok (.opened 1), w₁) := by
    simp only [w₁, w, d₀, before, hbefore, hopen]
  have hfilled : w₁.run inner = Work.run ⟨⟨16, 5, 0, 0, ⟨16, [4, 0, 1, 0, 4, 0, 2, 0], 131072⟩⟩,
      [(.plain ⟨0⟩, false), (.plain ⟨4⟩, false)]⟩ inner := by
    simp only [w₁, w, d₀, before, hbefore, hopen]
  rw [← hfilled] at hnests hoverflow
  have hfills : w₁.Fills 1 inner := by
    have hnone : ∀ k ∈ (none : Option Nat), 1 ≤ k := fun k hk => by cases hk
    refine ⟨⟨hnone, hnone, trivial⟩, ?_⟩
    rw [hnests]
    exact List.forall_mem_nil _
  have hcloses : (w₁.run inner).closes? (.close none) = some 1 := by
    rw [Work.closes?, hnests]
    rfl
  have herror : (w₁.run inner).step (.close none) =
      (.error (.invalidAttribute (.nestTooLong 65536)), w₃) := hpair hoverflow
  obtain ⟨hdraft, -, -, -, hafter⟩ := (failures_undone hfresh hin).2 (.openNest 2) 1 w₁ inner none
    _ w₃ hopened hfills hcloses herror
  refine ⟨hfresh, hin, hopened, hfills, hcloses, herror, ?_, ?_⟩
  · rw [hdraft, hbefore]
    rfl
  · exact (hafter rest).trans ((congrArg (fun w => (Work.run w _).draft) hbefore).trans
      (congrArg Work.draft hrest))

end Netlink.Draft
