import Netlink.Proofs.Draft.Invariant
import Netlink.Proofs.Draft.Nests

/-! # The length of a tree

A tree that is built aside can be kept as the record of its attribute, header and all. A child is then
added in two writes: the child behind the record, and the new length of the record over the one in
its header. If the second write could fail, a failure would leave the child behind. It cannot, since
the capacity of a tree never passes what a length field can declare; for the same reason every nest
inside the tree can be closed. So whatever is done to a tree, its record declares its own length. -/

namespace Netlink.Draft.Tree

/-! ## What every step keeps -/

/-- The children stand on the grid, in as much of the room that was asked for as a length field can
declare. -/
structure Sound (type : UInt16) (asked : Nat) (t : Tree) : Prop where
  type : t.type = type
  base : t.children.base = Attribute.headerSize
  aligned : t.children.Aligned
  room : t.children.size ≤ t.children.capacity
  capacity : t.children.capacity = max Attribute.headerSize (min asked maxRecord)

variable {type : UInt16} {asked : Nat} {t t' : Tree}

theorem length_encode (t : Tree) :
    t.encode.length = Attribute.headerSize + t.children.bytes.length := by
  rw [encode, List.length_append, AttributeHeader.length_encode]

theorem sound_new (type : UInt16) (asked : Nat) : (new type asked).Sound type asked :=
  ⟨rfl, rfl, rfl, Nat.le_max_left .., rfl⟩

namespace Sound

theorem size_eq (h : t.Sound type asked) : t.size = t.encode.length := by
  rw [size, Buffer.size, h.base, length_encode]

theorem length_le (h : t.Sound type asked) :
    t.encode.length ≤ max Attribute.headerSize (min asked maxRecord) := by
  rw [← h.size_eq, ← h.capacity]
  exact h.room

theorem length_mod (h : t.Sound type asked) : t.encode.length % 4 = 0 := by
  have haligned : t.children.bytes.length % 4 = 0 := h.aligned
  rw [length_encode, Attribute.headerSize]
  omega

theorem length_le_maxRecord (h : t.Sound type asked) : t.encode.length ≤ maxRecord := by
  have hle := h.length_le
  simp only [Attribute.headerSize, maxRecord] at hle ⊢
  omega

theorem declarable (h : t.Sound type asked) : Attribute.Declarable ⟨t.type, t.children.bytes⟩ := by
  have hle := h.length_le_maxRecord
  rw [length_encode] at hle
  exact Nat.lt_succ_of_le hle

/-- The record of a tree is that of an attribute. -/
theorem encode_eq (h : t.Sound type asked) :
    t.encode = Attribute.encode ⟨t.type, t.children.bytes⟩ := by
  have haligned : t.children.bytes.length % 4 = 0 := h.aligned
  rw [Attribute.encode_of_mod haligned]
  rfl

/-- A child is added behind the others. -/
theorem append {a : Attribute} (h : t.Sound type asked) (heq : t.append a = .ok t') :
    t' = { t with children := t.children.extend a.encode } ∧ t'.Sound type asked := by
  obtain ⟨b, hb, ht⟩ := bind_eq_ok.mp heq
  obtain ⟨rfl, -, hroom⟩ := Buffer.addAttribute_eq_ok h.aligned hb
  obtain rfl := (Except.ok.inj ht).symm
  exact ⟨rfl, ⟨h.type, h.base, h.aligned.extend_attribute a, hroom, h.capacity⟩⟩

/-- A nest whose header is there can be closed, which moves nothing. -/
theorem closeNest {mark : Mark} (h : t.Sound type asked)
    (hinside : mark.offset + Attribute.headerSize ≤ t.children.bytes.length) :
    ∃ b, t.children.setLength mark.offset (t.children.sizeFrom mark.offset) = .ok b ∧
      b.bytes.length = t.children.bytes.length ∧
      t.closeNest mark = .ok (t.children.sizeFrom mark.offset, { t with children := b }) ∧
      Sound type asked { t with children := b } := by
  have hdeclarable := h.declarable
  have hshort : ¬ maxRecord < t.children.sizeFrom mark.offset := by
    simp only [Attribute.Declarable, Attribute.recordSize, UInt16.size] at hdeclarable
    simp only [Buffer.sizeFrom, maxRecord]
    omega
  obtain ⟨b, hb⟩ : ∃ b, t.children.setLength mark.offset (t.children.sizeFrom mark.offset) =
      .ok b := ⟨_, if_neg hshort⟩
  have hin : mark.offset + 2 ≤ t.children.bytes.length := by
    simp only [Attribute.headerSize] at hinside
    omega
  have hlength := Buffer.length_of_setLength hin hb
  obtain ⟨hbase, -, hcapacity⟩ := Buffer.mk.inj (Buffer.blank_of_setLength hb)
  refine ⟨b, hb, hlength, ?_, ⟨h.type, hbase.trans h.base, ?_, ?_,
    hcapacity.trans h.capacity⟩⟩
  · rw [Tree.closeNest, hb]
    rfl
  · rw [Buffer.Aligned, hlength]
    exact h.aligned
  · have hroom := h.room
    simp only [Buffer.size, hlength, hbase, hcapacity] at hroom ⊢
    exact hroom

end Sound

namespace Work

/-- A tree in which there is nothing yet. -/
def start (type : UInt16) (asked : Nat) : Work := ⟨new type asked, []⟩

/-- Takes steps in order, whether they fail or not. -/
def run (w : Work) (steps : List Step) : Work := steps.foldl (fun w s => (w.step s).2) w

/-- The tree is sound, and the headers of all nests that were opened stand in it. -/
structure Sound (type : UInt16) (asked : Nat) (w : Work) : Prop where
  tree : w.tree.Sound type asked
  marks : ∀ nest ∈ w.nests, nest.1.offset + Attribute.headerSize ≤ w.tree.children.bytes.length

variable {w : Work}

theorem sound_start (type : UInt16) (asked : Nat) : (start type asked).Sound type asked :=
  ⟨sound_new type asked, List.forall_mem_nil _⟩

/-- A nest that a closing step means has its header in the tree, and so have all others after that. -/
theorem Sound.of_take? {number : Option Nat} {mark : Mark} {nests : Nests Mark}
    (h : w.Sound type asked) (htake : w.nests.take? number = some (mark, nests)) :
    mark.offset + Attribute.headerSize ≤ w.tree.children.bytes.length ∧
      ∀ nest ∈ nests, nest.1.offset + Attribute.headerSize ≤ w.tree.children.bytes.length := by
  obtain ⟨n, closed, -, hnest, rfl⟩ := Nests.take?_eq_some htake
  have hmark := h.marks _ (List.mem_of_getElem? hnest)
  refine ⟨hmark, fun nest hmem => ?_⟩
  rcases List.mem_or_eq_of_mem_set hmem with hold | rfl
  · exact h.marks nest hold
  · exact hmark

theorem openNest_eq_ok {child : UInt16} {mark : Mark} (h : t.Sound type asked)
    (heq : t.openNest child = .ok (mark, t')) :
    mark = ⟨t.children.bytes.length⟩ ∧ t.append ⟨child ||| Attribute.nestedFlag, []⟩ = .ok t' ∧
      t'.children.bytes.length = t.children.bytes.length + Attribute.headerSize := by
  obtain ⟨t₁, happend, hopen⟩ := bind_eq_ok.mp heq
  obtain ⟨rfl, rfl⟩ := Prod.mk.inj (Except.ok.inj hopen)
  obtain ⟨hbytes, -⟩ := h.append happend
  have hsize : (Attribute.encode ⟨child ||| Attribute.nestedFlag, []⟩).length =
      Attribute.headerSize := by
    rw [Attribute.encode_of_mod rfl, List.append_nil]
    exact AttributeHeader.length_encode _
  refine ⟨by rw [h.aligned.front], happend, ?_⟩
  rw [hbytes, ← hsize]
  exact List.length_append

/-- One step keeps a tree sound, whether it succeeds or fails. -/
theorem Sound.step (h : w.Sound type asked) (s : Step) : (w.step s).2.Sound type asked := by
  cases s with
  | append a =>
    rw [Work.step]
    split
    · rename_i tree happend
      obtain ⟨htree, hsound⟩ := h.tree.append happend
      refine ⟨hsound, fun nest hn => Nat.le_trans (h.marks nest hn) ?_⟩
      rw [htree]
      exact (List.length_append ▸ Nat.le_add_right ..)
    · exact h
  | openNest child =>
    rw [Work.step]
    split
    · rename_i mark tree hopen
      obtain ⟨rfl, happend, hlength⟩ := openNest_eq_ok h.tree hopen
      refine ⟨(h.tree.append happend).2, fun nest hn => ?_⟩
      rcases List.mem_append.mp hn with hn | hn
      · have hold := h.marks nest hn
        exact hlength ▸ Nat.le_add_right_of_le hold
      · obtain rfl := List.mem_singleton.mp hn
        exact Nat.le_of_eq hlength.symm
    · exact h
  | close number =>
    rw [Work.step]
    split
    · exact h
    · rename_i mark nests htake
      obtain ⟨hmark, hnests⟩ := h.of_take? htake
      obtain ⟨b, -, hlength, hclose, hsound⟩ := h.tree.closeNest hmark
      rw [hclose]
      exact ⟨hsound, fun nest hn => hlength ▸ hnests nest hn⟩

theorem Sound.run {steps : List Step} (h : w.Sound type asked) : (w.run steps).Sound type asked := by
  induction steps generalizing w with
  | nil => exact h
  | cons s steps ih => exact ih (h.step s)

end Work

/-! ## Kept as a record -/

/-- Adds a child behind a record, and then writes the length that the record has with it over the
one in its header. If that were refused, the child would be there all the same. -/
def grow (record : Buffer) (a : Attribute) : Except Error Unit × Buffer :=
  match record.putAttribute a with
  | (.error e, record) => (.error e, record)
  | (.ok (), longer) =>
    match longer.setLength 0 longer.bytes.length with
    | .error e => (.error e, longer)
    | .ok declared => (.ok (), declared)

/-- A tree in the making that is kept as the record of its attribute. A mark says how far behind the
header of the record that of a nest stands. -/
structure Kept where
  record : Buffer
  nests : Nests Mark
  deriving DecidableEq, Repr

namespace Kept

/-- The record of an attribute without payload, in the room for a tree. -/
def start (type : UInt16) (asked : Nat) : Kept :=
  ⟨⟨0, (AttributeHeader.ofSize type 0).encode, max Attribute.headerSize (min asked maxRecord)⟩, []⟩

def step (k : Kept) : Step → Except Error Product × Kept
  | .append a =>
    let (outcome, record) := grow k.record a
    (outcome.map fun _ => .nothing, { k with record })
  | .openNest type =>
    let mark : Mark := ⟨k.record.front - Attribute.headerSize⟩
    match grow k.record ⟨type ||| Attribute.nestedFlag, []⟩ with
    | (.ok _, record) => (.ok (.opened k.nests.length), ⟨record, k.nests ++ [(mark, false)]⟩)
    | (.error e, record) => (.error e, { k with record })
  | .close number =>
    match k.nests.take? number with
    | none => (.error Work.noNest, k)
    | some (mark, nests) =>
      let offset := Attribute.headerSize + mark.offset
      let length := k.record.sizeFrom offset
      match k.record.setLength offset length with
      | .ok record => (.ok (.closed length), ⟨record, nests⟩)
      | .error e => (.error e, { k with nests })

/-- Takes steps in order, whether they fail or not. -/
def run (k : Kept) (steps : List Step) : Kept := steps.foldl (fun k s => (k.step s).2) k

end Kept

/-- The record of a tree, in the room there is for the tree. -/
def record (t : Tree) : Buffer := ⟨0, t.encode, t.children.capacity⟩

/-- The same work on the record of the tree. -/
def Work.kept (w : Work) : Kept := ⟨w.tree.record, w.nests⟩

namespace Sound

theorem aligned_record (h : t.Sound type asked) : t.record.Aligned := h.length_mod

/-- A record takes a child where the tree does, and is refused it for the same reason. -/
theorem addAttribute_record (h : t.Sound type asked) (a : Attribute) :
    t.record.addAttribute a = (t.children.addAttribute a).map fun _ => t.record.extend a.encode := by
  have hfront : t.record.base + t.record.front = t.children.base + t.children.front := by
    rw [h.aligned_record.front, h.aligned.front, h.base]
    exact (Nat.zero_add _).trans t.length_encode
  have hbytes : Wire.padded t.record.bytes = t.encode := Wire.padded_of_mod h.length_mod
  rw [Buffer.addAttribute_eq, Buffer.addAttribute_eq]
  split
  · rfl
  · have hcapacity : t.record.capacity = t.children.capacity := rfl
    rw [Buffer.add_eq, Buffer.add_eq, hfront, hbytes, hcapacity]
    split <;> rfl

/-- A length in the header of a record is written over. -/
theorem setLength_header {header : AttributeHeader} {body : Bytes} {capacity length : Nat}
    (h : length ≤ maxRecord) :
    Buffer.setLength ⟨0, header.encode ++ body, capacity⟩ 0 length =
      .ok ⟨0, (AttributeHeader.mk (UInt16.ofNat length) header.type).encode ++ body, capacity⟩ :=
  Buffer.setLength_extend ⟨0, [], capacity⟩ header body h

/-- To add a child to the record is to take the record of the tree with the child. The second write
does not fail. -/
theorem grow_record (h : t.Sound type asked) (a : Attribute) :
    grow t.record a = match t.append a with
      | .ok t' => (.ok (), t'.record)
      | .error e => (.error e, t.record) := by
  rw [grow, Buffer.putAttribute_eq, h.addAttribute_record]
  cases hput : t.children.addAttribute a with
  | error e =>
    rw [Tree.append, hput]
    rfl
  | ok b =>
    have happend : t.append a = .ok { t with children := b } := by
      rw [Tree.append, hput]
      rfl
    obtain ⟨hb, hsound⟩ := h.append happend
    have hfits := hsound.length_le_maxRecord
    rw [length_encode] at hfits
    obtain rfl : b = t.children.extend a.encode := congrArg Tree.children hb
    have hlength : (t.record.extend a.encode).bytes.length =
        Attribute.headerSize + (t.children.extend a.encode).bytes.length := by
      rw [← length_encode { t with children := t.children.extend a.encode }]
      simp only [record, Buffer.extend, encode, List.length_append,
        AttributeHeader.length_encode, Nat.add_assoc]
    have hset : (t.record.extend a.encode).setLength 0 (t.record.extend a.encode).bytes.length =
        .ok (record { t with children := t.children.extend a.encode }) := by
      have hbytes : t.record.extend a.encode =
          ⟨0, (AttributeHeader.ofSize t.type t.children.bytes.length).encode ++
            (t.children.bytes ++ a.encode), t.children.capacity⟩ := by
        simp only [record, Buffer.extend, encode, List.append_assoc]
      rw [hlength, hbytes, setLength_header hfits]
      rfl
    rw [happend]
    simp only [Except.map, hset]

/-- To close a nest in the record is to take the record of the tree with the nest closed. -/
theorem setLength_record {mark : Mark} (h : t.Sound type asked)
    (hinside : mark.offset + Attribute.headerSize ≤ t.children.bytes.length) :
    let length := t.record.sizeFrom (Attribute.headerSize + mark.offset)
    ∃ t', t.closeNest mark = .ok (length, t') ∧
      t.record.setLength (Attribute.headerSize + mark.offset) length = .ok t'.record := by
  intro length
  obtain ⟨b, hb, hkept, hclose, -⟩ := h.closeNest hinside
  have hlength : length = t.children.sizeFrom mark.offset := by
    simp only [length, Buffer.sizeFrom, record, length_encode]
    exact Nat.add_sub_add_left ..
  have hbehind := Buffer.setLength_behind (AttributeHeader.ofSize t.type t.children.bytes.length).encode
    t.children mark.offset length
  rw [AttributeHeader.length_encode, hlength, hb, ← hlength] at hbehind
  refine ⟨{ t with children := b }, hlength ▸ hclose, hbehind.trans ?_⟩
  rw [record, encode, hkept]
  rfl

end Sound

theorem Work.kept_start (type : UInt16) (asked : Nat) :
    (start type asked).kept = Kept.start type asked := by
  rw [kept, record, encode]
  exact congrArg (fun bytes => Kept.mk ⟨0, bytes, _⟩ []) (List.append_nil _)

/-- A step on the record comes to what it comes to on the tree. -/
theorem Work.Sound.step_kept {w : Work} (h : w.Sound type asked) (s : Step) :
    w.kept.step s = ((w.step s).1, (w.step s).2.kept) := by
  cases s with
  | append a =>
    have hgrow := h.tree.grow_record a
    rw [Kept.step, Work.step, Work.kept, hgrow]
    cases w.tree.append a <;> rfl
  | openNest child =>
    have hgrow := h.tree.grow_record ⟨child ||| Attribute.nestedFlag, []⟩
    have hfront : w.tree.record.front - Attribute.headerSize = w.tree.children.front := by
      rw [h.tree.aligned_record.front, h.tree.aligned.front]
      exact Nat.sub_eq_of_eq_add' w.tree.length_encode
    rw [Kept.step, Work.step, Work.kept, hgrow, Tree.openNest, hfront]
    cases w.tree.append ⟨child ||| Attribute.nestedFlag, []⟩ <;> rfl
  | close number =>
    rw [Kept.step, Work.step, Work.kept]
    cases htake : w.nests.take? number with
    | none => rfl
    | some taken =>
      obtain ⟨mark, nests⟩ := taken
      obtain ⟨t', hclose, hset⟩ := h.tree.setLength_record (h.of_take? htake).1
      dsimp only
      rw [hset, hclose]
      rfl

theorem Work.Sound.run_kept {w : Work} {steps : List Step} (h : w.Sound type asked) :
    w.kept.run steps = (w.run steps).kept := by
  induction steps generalizing w with
  | nil => rfl
  | cons s steps ih =>
    have hrest := ih (h.step s)
    rw [Kept.run, List.foldl_cons, h.step_kept]
    exact hrest

/-- A failing step changes nothing in the record. -/
theorem Work.Sound.kept_of_error {w : Work} (h : w.Sound type asked) {s : Step} {e : Error}
    (he : (w.kept.step s).1 = .error e) : (w.kept.step s).2 = w.kept := by
  rw [h.step_kept] at he ⊢
  cases s with
  | append a =>
    rw [Work.step] at he ⊢
    cases happend : w.tree.append a with
    | ok t' =>
      rw [happend] at he
      cases he
    | error e => rfl
  | openNest child =>
    rw [Work.step] at he ⊢
    cases hopen : w.tree.openNest child with
    | ok opened =>
      rw [hopen] at he
      cases he
    | error e => rfl
  | close number =>
    rw [Work.step] at he ⊢
    cases htake : w.nests.take? number with
    | none => rfl
    | some taken =>
      obtain ⟨mark, nests⟩ := taken
      obtain ⟨b, -, -, hclose, -⟩ := h.tree.closeNest (h.of_take? htake).1
      rw [htake] at he
      dsimp only at he
      rw [hclose] at he
      cases he

/-- A nest that was opened is closed. -/
theorem Work.Sound.closed {w : Work} (h : w.Sound type asked) {number : Option Nat}
    (hopened : w.nests.take? number ≠ none) :
    ∃ length, (w.kept.step (.close number)).1 = .ok (.closed length) := by
  obtain ⟨⟨mark, nests⟩, htake⟩ := Option.ne_none_iff_exists'.mp hopened
  obtain ⟨b, -, -, hclose, -⟩ := h.tree.closeNest (h.of_take? htake).1
  refine ⟨w.tree.children.sizeFrom mark.offset, ?_⟩
  rw [h.step_kept, Work.step, htake]
  dsimp only
  rw [hclose]

/-- **A tree declares its own length, whatever is done to it.** A tree of any type, made with any
capacity, is put through any steps, failing ones among them. Its record declares its own length, which
is on the grid and within the capacity, or what a length field can declare of it; the walk of the
record finds one attribute, of the type that the tree was made with, and leaves nothing. A record that
is kept as such, with its length written anew behind each child, comes to the same, step by step. A
step that fails changes nothing in it, and a nest that was opened can always be closed. -/
theorem record_of_run (type : UInt16) (capacity : Nat) (steps : List Step) :
    let w := (Work.start type capacity).run steps
    let k := (Kept.start type capacity).run steps
    let record := w.tree.encode
    (AttributeHeader.ofBytes record).length.toNat = record.length ∧ w.tree.size = record.length ∧
      record.length % 4 = 0 ∧
      record.length ≤ max Attribute.headerSize (min capacity maxRecord) ∧
      Attribute.walk record = ⟨[⟨type, w.tree.children.bytes⟩], []⟩ ∧
      k = w.kept ∧ k.record.bytes = record ∧
      (∀ s, k.step s = ((w.step s).1, (w.step s).2.kept)) ∧
      (∀ s e, (k.step s).1 = .error e → (k.step s).2 = k) ∧
      ∀ number, k.nests.take? number ≠ none →
        ∃ length, (k.step (.close number)).1 = .ok (.closed length) := by
  intro w k record
  have hw : w.Sound type capacity := (Work.sound_start type capacity).run
  have hk : k = w.kept := by
    rw [← (Work.sound_start type capacity).run_kept, Work.kept_start]
  have hdeclared : (AttributeHeader.ofBytes record).length.toNat = record.length := by
    have hheader : AttributeHeader.ofBytes record =
        AttributeHeader.ofSize w.tree.type w.tree.children.bytes.length :=
      AttributeHeader.ofBytes_encode_append ..
    rw [hheader, Attribute.toNat_length_ofSize hw.tree.declarable]
    exact w.tree.length_encode.symm
  have hwalk : Attribute.walk record = ⟨[⟨type, w.tree.children.bytes⟩], []⟩ := by
    have hone := Attribute.walk_encodeAll (List.forall_mem_singleton.mpr hw.tree.declarable)
    have hrecord : Attribute.encodeAll [⟨w.tree.type, w.tree.children.bytes⟩] = record := by
      rw [Attribute.encodeAll_cons, ← hw.tree.encode_eq]
      exact List.append_nil _
    rwa [hrecord, hw.tree.type] at hone
  rw [hk]
  exact ⟨hdeclared, hw.tree.size_eq, hw.tree.length_mod, hw.tree.length_le, hwalk, rfl, rfl,
    hw.step_kept, fun s e he => hw.kept_of_error he, fun number hopened => hw.closed hopened⟩

/-- A number, a nest with a number in it, and then a child for which there is no room. -/
theorem record_of_run_sample :
    let steps : List Step :=
      [.append (.ofU16 1 5), .openNest 2, .append (.ofU32 1 6), .close none]
    let k := (Kept.start 7 64).run steps
    let tooLong : Step := .append ⟨3, Wire.zeros 64⟩
    k.record.bytes = [24, 0, 7, 0, 6, 0, 1, 0, 5, 0, 0, 0, 12, 0, 2, 128, 8, 0, 1, 0, 6, 0, 0, 0] ∧
      (k.step tooLong).1 = .error (.messageFull 64 92) ∧ (k.step tooLong).2 = k ∧
      k.nests.take? (some 0) ≠ none ∧
      ∃ length, (k.step (.close (some 0))).1 = .ok (.closed length) := by
  intro steps k tooLong
  have hbytes : k.record.bytes =
      [24, 0, 7, 0, 6, 0, 1, 0, 5, 0, 0, 0, 12, 0, 2, 128, 8, 0, 1, 0, 6, 0, 0, 0] := by decide
  have hfull : (k.step tooLong).1 = .error (.messageFull 64 92) := by
    simp only [k, steps, tooLong]
    rfl
  have hopened : k.nests.take? (some 0) ≠ none := by decide
  obtain ⟨-, -, -, -, -, -, -, -, hsame, hclosed⟩ := record_of_run 7 64 steps
  exact ⟨hbytes, hfull, hsame tooLong _ hfull, hopened, hclosed (some 0) hopened⟩

end Netlink.Draft.Tree
