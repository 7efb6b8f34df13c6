import Netlink.Proofs.Draft.Settings
import Netlink.Proofs.Message.Packets

/-! # What every run keeps

Whatever is done to a draft, and whether or not it succeeds, the bytes stay on the grid and within
the capacity. Nests may be closed in any order and more than once, as long as their headers have not
been cut off. -/

namespace Netlink.Draft

namespace Buffer

/-- A body behind a message header: on the grid, and within its capacity. -/
structure Sound (b : Buffer) : Prop where
  base : b.base = headerSize
  aligned : b.Aligned
  room : b.size ≤ b.capacity

theorem Sound.add {b b' : Buffer} {piece : Bytes} (h : b.Sound) (heq : b.add piece = .ok b') :
    b'.Sound := by
  obtain ⟨rfl, hroom⟩ := add_eq_ok h.aligned heq
  exact ⟨h.base, h.aligned.extend (Wire.length_padded_mod piece), hroom⟩

theorem Sound.addAttribute {b b' : Buffer} {a : Attribute} (h : b.Sound)
    (heq : b.addAttribute a = .ok b') : b'.Sound := by
  obtain ⟨rfl, _, hroom⟩ := addAttribute_eq_ok h.aligned heq
  exact ⟨h.base, h.aligned.extend_attribute a, hroom⟩

theorem Sound.cut {b : Buffer} {offset : Nat} (h : b.Sound) (hgrid : offset % 4 = 0) :
    (b.cut offset).Sound := by
  have ha : b.bytes.length % 4 = 0 := h.aligned
  have hroom : b.base + b.bytes.length ≤ b.capacity := h.room
  refine ⟨h.base, ?_, ?_⟩
  · simp only [Aligned, Buffer.cut, List.length_take]
    omega
  · simp only [size, Buffer.cut, List.length_take]
    omega

/-- Writing a length over one that is there moves nothing. -/
theorem length_of_setLength {b b' : Buffer} {offset length : Nat}
    (hin : offset + 2 ≤ b.bytes.length) (heq : b.setLength offset length = .ok b') :
    b'.bytes.length = b.bytes.length := by
  unfold setLength at heq
  split at heq
  · contradiction
  · rw [← Except.ok.inj heq]
    simp only [List.length_append, List.length_take, List.length_drop, Wire.length_le16]
    omega

/-- Where the length of an attribute was written, a cut in front of the attribute takes it away. -/
theorem cut_of_setLength {b b' : Buffer} {offset length : Nat} (hin : offset ≤ b.bytes.length)
    (h : b.setLength offset length = .ok b') : b'.cut offset = b.cut offset := by
  unfold setLength at h
  split at h
  · contradiction
  · rw [← Except.ok.inj h]
    simp only [Buffer.cut, List.append_assoc]
    rw [List.take_append_of_le_length (by simp [hin]), List.take_take, Nat.min_self]

theorem Sound.setLength {b b' : Buffer} {offset length : Nat} (h : b.Sound)
    (hin : offset + 2 ≤ b.bytes.length) (heq : b.setLength offset length = .ok b') : b'.Sound := by
  have hlength := length_of_setLength hin heq
  have hblank := blank_of_setLength heq
  have hbase : b'.base = b.base := (Buffer.mk.inj hblank).1
  have hcapacity : b'.capacity = b.capacity := (Buffer.mk.inj hblank).2.2
  refine ⟨hbase.trans h.base, ?_, ?_⟩
  · unfold Aligned
    rw [hlength]
    exact h.aligned
  · have hroom := h.room
    simp only [size, hlength, hbase, hcapacity] at hroom ⊢
    exact hroom

end Buffer

namespace AnyMark

/-- The headers of the nest stand on the grid, and an inner one behind the outer one. -/
def OnGrid : AnyMark → Prop
  | .plain mark => mark.offset % 4 = 0
  | .compat mark => mark.outer % 4 = 0 ∧ mark.inner.offset % 4 = 0 ∧
      mark.outer + Attribute.headerSize ≤ mark.inner.offset

/-- The headers of the nest have not been cut off. -/
def Inside (b : Buffer) : AnyMark → Prop
  | .plain mark => mark.offset + Attribute.headerSize ≤ b.bytes.length
  | .compat mark => mark.outer + Attribute.headerSize ≤ b.bytes.length ∧
      mark.inner.offset + Attribute.headerSize ≤ b.bytes.length

instance (b : Buffer) : DecidablePred (Inside b)
  | .plain _ => inferInstanceAs (Decidable (_ ≤ _))
  | .compat _ => inferInstanceAs (Decidable (_ ∧ _))

end AnyMark

theorem sound_closeNest {d : Draft} {mark : Mark} (h : d.body.Sound)
    (hgrid : (AnyMark.plain mark).OnGrid) (hin : (AnyMark.plain mark).Inside d.body) :
    (d.closeNest mark).2.body.Sound := by
  simp only [AnyMark.Inside, Attribute.headerSize] at hin
  unfold closeNest
  dsimp only
  split
  · rename_i b hb
    exact h.setLength (by omega) hb
  · exact h.cut hgrid

theorem sound_closeCompat {d : Draft} {mark : CompatMark} (h : d.body.Sound)
    (hgrid : (AnyMark.compat mark).OnGrid) (hin : (AnyMark.compat mark).Inside d.body) :
    (d.closeCompat mark).2.body.Sound := by
  obtain ⟨houter, hinner, hbehind⟩ := hgrid
  simp only [AnyMark.Inside, Attribute.headerSize] at hin hbehind
  -- without its inner attribute the body still reaches past the outer header
  have hbase : (if d.body.sizeFrom mark.inner.offset = Attribute.headerSize then
      d.body.cut mark.inner.offset else d.body).Sound := by
    split
    · exact h.cut hinner
    · exact h
  have hreach : mark.outer + 2 ≤ (if d.body.sizeFrom mark.inner.offset = Attribute.headerSize then
      d.body.cut mark.inner.offset else d.body).bytes.length := by
    split
    · simp only [Buffer.cut, List.length_take]
      omega
    · omega
  obtain ⟨b, hb, hcases⟩ := closeCompat_cases d mark
  rw [hb]
  rcases hcases with ⟨-, rfl⟩ | ⟨-, b₁, hb₁, rfl | ⟨hkept, length, hb₂⟩⟩
  · exact hbase.cut houter
  · exact hbase.setLength hreach hb₁
  · refine (hbase.setLength hreach hb₁).setLength ?_ hb₂
    rw [Buffer.length_of_setLength hreach hb₁, hkept]
    omega

theorem sound_addRaw {d d' : Draft} {data : Bytes} (h : d.body.Sound)
    (heq : d.addRaw data = .ok d') : d'.body.Sound := by
  obtain ⟨b, hb, rfl⟩ := addRaw_eq_ok_iff.mp heq
  exact h.add hb

theorem sound_add {d d' : Draft} {a : Attribute} (h : d.body.Sound)
    (heq : d.add a = .ok d') : d'.body.Sound := by
  obtain ⟨b, hb, rfl⟩ := add_eq_ok_iff.mp heq
  exact h.addAttribute hb

theorem sound_addNest {d d' : Draft} {type : UInt16} {mark : Mark} (h : d.body.Sound)
    (heq : d.addNest type = .ok (mark, d')) :
    d'.body.Sound ∧ mark.offset = d.body.bytes.length := by
  obtain ⟨hadd, rfl⟩ := addNest_eq_ok_iff.mp heq
  exact ⟨sound_add h hadd, h.aligned.front⟩

theorem sound_openCompat {d d' : Draft} {type : UInt16} {data : Bytes} {mark : CompatMark}
    (h : d.body.Sound) (heq : d.openCompat type data = (.ok mark, d')) :
    d'.body.Sound ∧ (AnyMark.compat mark).OnGrid := by
  obtain ⟨d₁, hd₁, hd₂, houter⟩ := openCompat_eq_ok_iff.mp heq
  obtain ⟨h₂, hinner⟩ := sound_addNest (sound_add h hd₁) hd₂
  have hlength := length_of_add hd₁
  rw [h.aligned.front] at hlength
  have ha : d.body.bytes.length % 4 = 0 := h.aligned
  have hrecord := Wire.align4_mod (Attribute.recordSize ⟨type, data⟩)
  have hsize := Wire.le_align4 (Attribute.recordSize ⟨type, data⟩)
  refine ⟨h₂, ?_⟩
  simp only [AnyMark.OnGrid, houter, h.aligned.front, hinner, hlength]
  simp only [Attribute.recordSize, Attribute.headerSize] at hrecord hsize ⊢
  omega

namespace Work

/-- The body is sound, and so are the marks of all nests that were opened. -/
structure Sound (w : Work) : Prop where
  body : w.draft.body.Sound
  marks : ∀ nest ∈ w.nests, nest.1.OnGrid

/-- The nest that a step is about to close. -/
def closing? (w : Work) : Step → Option AnyMark
  | .close number => (w.nests.take? number).map (·.1)
  | _ => none

/-- A step that closes a nest finds the headers of the nest inside the body. -/
def Permits (w : Work) (s : Step) : Prop := ∀ mark ∈ w.closing? s, mark.Inside w.draft.body

instance (w : Work) : DecidablePred w.Permits := fun _ => Option.decidableForallMem _

/-- Every step that closes a nest finds its headers when its turn comes. -/
def ClosesInside (w : Work) : List Step → Prop
  | [] => True
  | s :: steps => w.Permits s ∧ (w.step s).2.ClosesInside steps

/-- Whether a run is permitted is found out by running it. -/
def decideClosesInside : (w : Work) → (steps : List Step) → Decidable (w.ClosesInside steps)
  | _, [] => .isTrue trivial
  | w, s :: steps =>
    @instDecidableAnd (w.Permits s) ((w.step s).2.ClosesInside steps) _
      ((w.step s).2.decideClosesInside steps)

instance (w : Work) : DecidablePred w.ClosesInside := w.decideClosesInside

theorem Sound.settled {w : Work} {x : Except Error Draft} (h : w.Sound)
    (hx : ∀ d, x = .ok d → d.body.Sound) : (w.settled x).2.Sound := by
  cases x with
  | error e => exact h
  | ok d => exact ⟨hx d rfl, h.marks⟩

theorem Sound.settleOpen {w : Work} {outcome : Except Error AnyMark} {draft : Draft} (h : w.Sound)
    (hdraft : draft.body.Sound) (hmark : ∀ mark, outcome = .ok mark → mark.OnGrid) :
    (w.settleOpen outcome draft).2.Sound := by
  cases outcome with
  | error e => exact ⟨hdraft, h.marks⟩
  | ok mark =>
    refine ⟨hdraft, fun nest hn => ?_⟩
    rcases List.mem_append.mp hn with hn | hn
    · exact h.marks nest hn
    · rw [List.mem_singleton.mp hn]
      exact hmark mark rfl

theorem marks_of_take? {nests after : Nests AnyMark} {number : Option Nat} {mark : AnyMark}
    (h : ∀ nest ∈ nests, nest.1.OnGrid) (htake : nests.take? number = some (mark, after)) :
    mark.OnGrid ∧ ∀ nest ∈ after, nest.1.OnGrid := by
  unfold Nests.take? at htake
  obtain ⟨n, _, hn⟩ := Option.bind_eq_some_iff.mp htake
  obtain ⟨⟨m, closed⟩, hget, heq⟩ := Option.bind_eq_some_iff.mp hn
  obtain ⟨rfl, rfl⟩ := Prod.mk.inj (Option.some.inj heq)
  have hm := h _ (List.mem_of_getElem? hget)
  refine ⟨hm, fun nest hnest => ?_⟩
  rcases List.mem_or_eq_of_mem_set hnest with hold | rfl
  · exact h nest hold
  · exact hm

/-- One step keeps the work sound, whether it succeeds or fails. -/
theorem Sound.step {w : Work} {s : Step} (h : w.Sound) (hs : w.Permits s) :
    (w.step s).2.Sound := by
  cases s with
  | appendRaw data =>
    rw [step_appendRaw]
    exact h.settled fun d hd => sound_addRaw h.body hd
  | append a =>
    rw [step_append]
    exact h.settled fun d hd => sound_add h.body hd
  | appendTree type capacity steps =>
    rw [step_appendTree]
    refine h.settled fun d hd => ?_
    obtain ⟨tree, _, hraw⟩ := bind_eq_ok.mp hd
    exact sound_addRaw h.body hraw
  | openNest type =>
    rw [step_openNest]
    split
    · rename_i mark draft hopen
      obtain ⟨hbody, hmark⟩ := sound_addNest h.body hopen
      refine h.settleOpen hbody fun m hm => ?_
      cases hm
      simp only [AnyMark.OnGrid, hmark]
      exact h.body.aligned
    · exact h
  | openCompat type data =>
    rw [step_openCompat]
    split
    · rename_i mark draft hopen
      obtain ⟨hbody, hmark⟩ := sound_openCompat h.body hopen
      refine h.settleOpen hbody fun m hm => ?_
      cases hm
      exact hmark
    · exact h
  | close number =>
    have hinside : ∀ {mark : AnyMark} {nests : Nests AnyMark},
        w.nests.take? number = some (mark, nests) → mark.Inside w.draft.body := by
      intro mark nests htake
      apply hs
      rw [closing?, htake]
      rfl
    unfold Work.step
    dsimp only
    split
    · exact h
    · rename_i mark nests htake
      obtain ⟨hmark, hnests⟩ := marks_of_take? h.marks htake
      exact ⟨sound_closeNest h.body hmark (hinside htake), hnests⟩
    · rename_i mark nests htake
      obtain ⟨hmark, hnests⟩ := marks_of_take? h.marks htake
      exact ⟨sound_closeCompat h.body hmark (hinside htake), hnests⟩
  | setFlags flags => exact ⟨h.body, h.marks⟩
  | setSeq seq => exact ⟨h.body, h.marks⟩
  | setPid pid => exact ⟨h.body, h.marks⟩
  | refuse reason => exact h

/-- A run keeps the work sound. -/
theorem Sound.run {w : Work} {steps : List Step} (h : w.Sound) (hin : w.ClosesInside steps) :
    (w.run steps).Sound := by
  induction steps generalizing w with
  | nil => exact h
  | cons s steps ih => exact ih (h.step hin.1) hin.2

theorem sound_start {d : Draft} (h : Fresh d) : (start d).Sound := by
  have hroom : headerSize ≤ d.capacity := by
    cases h with
    | new type flags => exact Nat.le_of_ble_eq_true rfl
    | ofHeader header => exact Nat.le_of_ble_eq_true rfl
    | withCapacity type flags capacity => exact Nat.le_max_right ..
  refine ⟨⟨h.base, h.aligned, ?_⟩, fun nest hn => by cases hn⟩
  simp only [start, Buffer.size, h.base, h.bytes]
  exact hroom

end Work

end Netlink.Draft
