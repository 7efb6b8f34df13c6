import Netlink.Proofs.Draft.Steps
import Netlink.Proofs.Draft.TreeLength

/-! # The stored message

A message can be kept as its bytes from the first step on, header first. The length in the header is
then one more thing that is stored: every write that adds bytes has to put the new length over the
old one, and so has every cut. A step that forgot to would leave a message that declares less or more
than it is. None does: the stored bytes are those of the draft after every step, and so after every
run. -/

namespace Netlink.Draft

namespace Buffer

/-- Writes a field over the bytes at `offset`. -/
def overwrite (b : Buffer) (offset : Nat) (field : Bytes) : Buffer :=
  { b with bytes := b.bytes.take offset ++ field ++ b.bytes.drop (offset + field.length) }

/-- A field is written over another one of its length, and nothing moves. -/
theorem overwrite_field {b : Buffer} {front old field behind : Bytes} {offset : Nat}
    (hbytes : b.bytes = front ++ (old ++ behind)) (hfront : front.length = offset)
    (hfield : field.length = old.length) :
    b.overwrite offset field = { b with bytes := front ++ (field ++ behind) } := by
  rw [overwrite, hbytes, ← hfront, hfield, List.take_left, List.drop_length_add_append,
    List.drop_left, List.append_assoc]

end Buffer

/-- A message in the making that is kept as its bytes. A mark says how far behind the header of the
message that of a nest stands. -/
structure Kept where
  message : Buffer
  nests : Nests AnyMark
  deriving DecidableEq, Repr

namespace Kept

/-! ## Changing what is stored -/

/-- Writes the number of the bytes over the length in the header. -/
def declare (b : Buffer) : Buffer := b.overwrite 0 (Wire.le32 (UInt32.ofNat b.bytes.length))

/-- Takes out everything from `offset` on. -/
def rollback (b : Buffer) (offset : Nat) : Buffer := declare (b.cut offset)

def appendRaw (b : Buffer) (data : Bytes) : Except Error Unit × Buffer :=
  match b.put data with
  | (.ok (), longer) => (.ok (), declare longer)
  | (.error e, left) => (.error e, left)

def append (b : Buffer) (a : Attribute) : Except Error Unit × Buffer :=
  match b.putAttribute a with
  | (.ok (), longer) => (.ok (), declare longer)
  | (.error e, left) => (.error e, left)

def openNest (b : Buffer) (type : UInt16) : Except Error Mark × Buffer :=
  let (outcome, b') := append b (.mark type)
  (outcome.map fun () => ⟨b.front - headerSize⟩, b')

def closeNest (b : Buffer) (mark : Mark) : Except Error Nat × Buffer :=
  let offset := headerSize + mark.offset
  let length := b.sizeFrom offset
  match b.setLength offset length with
  | .ok closed => (.ok length, closed)
  | .error e => (.error e, rollback b offset)

def openCompat (b : Buffer) (type : UInt16) (data : Bytes) : Except Error CompatMark × Buffer :=
  match append b ⟨type, data⟩ with
  | (.error e, left) => (.error e, left)
  | (.ok (), outer) =>
    match openNest outer type with
    | (.ok inner, b') => (.ok ⟨b.front - headerSize, inner⟩, b')
    | (.error e, left) => (.error e, rollback left b.bytes.length)

/-- Closes a nest behind a struct. The length of the outer attribute is there already if that of the
inner one is refused. -/
def closeCompat (b : Buffer) (mark : CompatMark) : Except Error Unit × Buffer :=
  let outer := headerSize + mark.outer
  let inner := headerSize + mark.inner.offset
  let innerLength := b.sizeFrom inner
  let dropped := innerLength = Attribute.headerSize
  let b := if dropped then rollback b inner else b
  match b.setLength outer (b.sizeFrom outer) with
  | .error e => (.error e, rollback b outer)
  | .ok declared =>
    if dropped then (.ok (), declared)
    else match declared.setLength inner innerLength with
      | .ok closed => (.ok (), closed)
      | .error e => (.error e, rollback declared outer)

/-! ## Steps -/

/-- The header as it is given, in a buffer that is then told its length. -/
def ofHeader (h : Header) : Kept := ⟨declare ⟨0, h.encode, defaultCapacity⟩, []⟩

def new (type flags : UInt16) : Kept := ofHeader (Header.ofType type flags)

def withCapacity (type flags : UInt16) (capacity : Nat) : Kept :=
  let k := new type flags
  { k with message := { k.message with capacity := max capacity headerSize } }

def settle (k : Kept) (outcome : Except Error Unit) (message : Buffer) :
    Except Error Product × Kept :=
  (outcome.map fun () => .nothing, { k with message })

def settleOpen (k : Kept) (outcome : Except Error AnyMark) (message : Buffer) :
    Except Error Product × Kept :=
  match outcome with
  | .ok mark => (.ok (.opened k.nests.length), ⟨message, k.nests ++ [(mark, false)]⟩)
  | .error e => (.error e, { k with message })

def step (k : Kept) : Step → Except Error Product × Kept
  | .appendRaw data =>
    let (outcome, message) := appendRaw k.message data
    k.settle outcome message
  | .append a =>
    let (outcome, message) := append k.message a
    k.settle outcome message
  | .appendTree type capacity steps =>
    match Tree.Work.build ⟨Tree.new type capacity, []⟩ steps with
    | .error e => (.error e, k)
    | .ok work =>
      let (outcome, message) := appendRaw k.message work.tree.encode
      k.settle outcome message
  | .openNest type =>
    let (outcome, message) := openNest k.message type
    k.settleOpen (outcome.map .plain) message
  | .openCompat type data =>
    let (outcome, message) := openCompat k.message type data
    k.settleOpen (outcome.map .compat) message
  | .close number =>
    match k.nests.take? number with
    | none => (.error Tree.Work.noNest, k)
    | some (.plain mark, nests) =>
      let (outcome, message) := closeNest k.message mark
      (outcome.map .closed, ⟨message, nests⟩)
    | some (.compat mark, nests) =>
      let (outcome, message) := closeCompat k.message mark
      (outcome.map fun _ => .nothing, ⟨message, nests⟩)
  | .setFlags flags => (.ok .nothing, { k with message := k.message.overwrite 6 (Wire.le16 flags) })
  | .setSeq seq => (.ok .nothing, { k with message := k.message.overwrite 8 (Wire.le32 seq) })
  | .setPid pid => (.ok .nothing, { k with message := k.message.overwrite 12 (Wire.le32 pid) })
  | .refuse reason => (.error (.invalidMessage (.stated reason)), k)

/-- Takes steps in order, whether they fail or not. -/
def run (k : Kept) (steps : List Step) : Kept := steps.foldl (fun k s => (k.step s).2) k

end Kept

/-! ## What is stored is the draft -/

/-- The bytes of a draft, in the room that there is for them. -/
def stored (d : Draft) : Buffer := ⟨0, d.encode, d.capacity⟩

/-- The same work on the stored bytes. -/
def Work.kept (w : Work) : Kept := ⟨w.draft.stored, w.nests⟩

section Stored

variable {d : Draft}

theorem size_stored (h : d.body.Sound) : d.size = headerSize + d.body.bytes.length := by
  rw [size, Buffer.size, h.base]

theorem aligned_stored (h : d.body.Sound) : d.stored.Aligned := by
  have haligned : d.body.bytes.length % 4 = 0 := h.aligned
  rw [Buffer.Aligned, stored, length_encode, headerSize]
  omega

/-- Behind a header of fixed size, bytes begin where they begin behind the stored one. -/
theorem front_stored (h : d.body.Sound) : d.stored.front = headerSize + d.body.front := by
  rw [(aligned_stored h).front, h.aligned.front]
  exact d.length_encode

theorem sizeFrom_stored (d : Draft) (offset : Nat) :
    d.stored.sizeFrom (headerSize + offset) = d.body.sizeFrom offset := by
  rw [Buffer.sizeFrom, stored, length_encode]
  exact Nat.add_sub_add_left ..

/-- The stored bytes take a piece where the body does, and are refused it for the same reason. -/
theorem add_stored (h : d.body.Sound) (piece : Bytes) :
    d.stored.add piece = (d.body.add piece).map fun _ => d.stored.extend (Wire.padded piece) := by
  have hfront : d.stored.base + d.stored.front = d.body.base + d.body.front := by
    rw [front_stored h, h.base]
    exact Nat.zero_add _
  have hbytes : Wire.padded d.stored.bytes = d.stored.bytes :=
    Wire.padded_of_mod (aligned_stored h)
  have hcapacity : d.stored.capacity = d.body.capacity := rfl
  rw [Buffer.add_eq, Buffer.add_eq, hfront, hbytes, hcapacity]
  split <;> rfl

theorem addAttribute_stored (h : d.body.Sound) (a : Attribute) :
    d.stored.addAttribute a =
      (d.body.addAttribute a).map fun _ => d.stored.extend a.encode := by
  rw [Buffer.addAttribute_eq, Buffer.addAttribute_eq]
  split
  · rfl
  · exact add_stored h _

end Stored

namespace Kept

variable {d : Draft}

/-- The length in the header is written over, whatever it was. -/
theorem declare_header (h : Header) (body : Bytes) (capacity : Nat) :
    declare ⟨0, h.encode ++ body, capacity⟩ =
      ⟨0, Header.encode { h with length := UInt32.ofNat (headerSize + body.length) } ++ body,
        capacity⟩ := by
  have hbytes : h.encode ++ body = [] ++ (Wire.le32 h.length ++ (Wire.le16 h.type ++
      Wire.le16 h.flags ++ Wire.le32 h.seq ++ Wire.le32 h.pid ++ body)) := by
    simp only [Header.encode, List.append_assoc, List.nil_append]
  have hlength : (h.encode ++ body).length = headerSize + body.length := by simp
  rw [declare, hlength, Buffer.overwrite_field hbytes List.length_nil (by simp)]
  simp only [Header.encode, List.append_assoc, List.nil_append]

/-- Once its length is declared, a message with more bytes is that of the draft with these bytes. -/
theorem declare_extend (h : d.body.Sound) (added : Bytes) :
    declare (d.stored.extend added) = (d.extend added).stored := by
  have hsize : headerSize + (d.body.bytes ++ added).length = (d.extend added).size := by
    rw [size, Buffer.size, extend, Buffer.extend, h.base]
  rw [Buffer.extend, stored, encode, List.append_assoc, declare_header, hsize]
  rfl

theorem rollback_stored (h : d.body.Sound) (offset : Nat) :
    rollback d.stored (headerSize + offset) =
      stored { d with body := d.body.cut offset } := by
  have hsize : headerSize + (d.body.bytes.take offset).length =
      size { d with body := d.body.cut offset } := by
    rw [size, Buffer.size, Buffer.cut, h.base]
  have hcut : (d.header.encode ++ d.body.bytes).take (headerSize + offset) =
      d.header.encode ++ d.body.bytes.take offset := by
    rw [← d.header.length_encode, List.take_length_add_append]
  rw [rollback, Buffer.cut, stored, encode, hcut, declare_header, hsize]
  rfl

/-- A length written over one that is there leaves that of the message as it is. -/
theorem setLength_stored {offset : Nat} (length : Nat)
    (hin : offset + 2 ≤ d.body.bytes.length) :
    d.stored.setLength (headerSize + offset) length =
      (d.body.setLength offset length).map fun body => stored { d with body } := by
  have hbehind := Buffer.setLength_behind d.header.encode d.body offset length
  rw [Header.length_encode] at hbehind
  refine hbehind.trans ?_
  cases hset : d.body.setLength offset length with
  | error e => rfl
  | ok b =>
    have hlength := Buffer.length_of_setLength hin hset
    obtain ⟨hbase, -, -⟩ := Buffer.mk.inj (Buffer.blank_of_setLength hset)
    have hheader : d.header = header { d with body := b } := by
      simp only [header, size, Buffer.size, hlength, hbase]
    simp only [Except.map, hheader]
    rfl

/-! ### Writes -/

theorem appendRaw_stored (h : d.body.Sound) (data : Bytes) :
    appendRaw d.stored data = Prod.map id stored (d.appendRaw data) := by
  rw [appendRaw, Draft.appendRaw, Buffer.put_eq, Buffer.put_eq, add_stored h]
  cases hadd : d.body.add data with
  | error e => rfl
  | ok b =>
    obtain ⟨rfl, -⟩ := Buffer.add_eq_ok h.aligned hadd
    exact congrArg (Prod.mk _) (declare_extend h _)

theorem append_stored (h : d.body.Sound) (a : Attribute) :
    append d.stored a = Prod.map id stored (d.append a) := by
  rw [append, Draft.append, Buffer.putAttribute_eq, Buffer.putAttribute_eq, addAttribute_stored h]
  cases hadd : d.body.addAttribute a with
  | error e => rfl
  | ok b =>
    obtain ⟨rfl, -⟩ := Buffer.addAttribute_eq_ok h.aligned hadd
    exact congrArg (Prod.mk _) (declare_extend h _)

theorem openNest_stored (h : d.body.Sound) (type : UInt16) :
    openNest d.stored type = Prod.map id stored (d.openNest type) := by
  have hfront : d.stored.front - headerSize = d.body.front :=
    Nat.sub_eq_of_eq_add' (front_stored h)
  rw [openNest, append_stored h, hfront]
  rfl

theorem openCompat_stored (h : d.body.Sound) (type : UInt16) (data : Bytes) :
    openCompat d.stored type data = Prod.map id stored (d.openCompat type data) := by
  have hfront : d.stored.front - headerSize = d.body.front :=
    Nat.sub_eq_of_eq_add' (front_stored h)
  rw [openCompat, Draft.openCompat, append_stored h, hfront]
  cases happend : d.append ⟨type, data⟩ with
  | mk outcome outer =>
    cases outcome with
    | error e => rfl
    | ok _ =>
      have houter : outer.body.Sound := sound_add h (add_of_append happend)
      dsimp only [Prod.map, id]
      rw [openNest_stored houter]
      cases hopen : outer.openNest type with
      | mk outcome left =>
        cases outcome with
        | ok inner => rfl
        | error e =>
          obtain rfl := openNest_error hopen
          have hlength : d.stored.bytes.length = headerSize + d.body.bytes.length := d.length_encode
          dsimp only [Prod.map, id]
          rw [hlength, rollback_stored houter]

/-! ### Settings -/

theorem overwrite_flags (d : Draft) (flags : UInt16) :
    d.stored.overwrite 6 (Wire.le16 flags) = (d.setFlags flags).stored := by
  have hbytes : d.stored.bytes = Wire.le32 d.header.length ++ Wire.le16 d.type ++
      (Wire.le16 d.flags ++ (Wire.le32 d.seq ++ Wire.le32 d.pid ++ d.body.bytes)) := by
    simp only [stored, encode, Header.encode, header, List.append_assoc]
  rw [Buffer.overwrite_field hbytes (by simp) (by simp)]
  simp only [stored, encode, Header.encode, header, setFlags, size, capacity, List.append_assoc]

theorem overwrite_seq (d : Draft) (seq : UInt32) :
    d.stored.overwrite 8 (Wire.le32 seq) = (d.setSeq seq).stored := by
  have hbytes : d.stored.bytes = Wire.le32 d.header.length ++ Wire.le16 d.type ++
      Wire.le16 d.flags ++ (Wire.le32 d.seq ++ (Wire.le32 d.pid ++ d.body.bytes)) := by
    simp only [stored, encode, Header.encode, header, List.append_assoc]
  rw [Buffer.overwrite_field hbytes (by simp) (by simp)]
  simp only [stored, encode, Header.encode, header, setSeq, size, capacity, List.append_assoc]

theorem overwrite_pid (d : Draft) (pid : UInt32) :
    d.stored.overwrite 12 (Wire.le32 pid) = (d.setPid pid).stored := by
  have hbytes : d.stored.bytes = Wire.le32 d.header.length ++ Wire.le16 d.type ++
      Wire.le16 d.flags ++ Wire.le32 d.seq ++ (Wire.le32 d.pid ++ d.body.bytes) := by
    simp only [stored, encode, Header.encode, header, List.append_assoc]
  rw [Buffer.overwrite_field hbytes (by simp) (by simp)]
  simp only [stored, encode, Header.encode, header, setPid, size, capacity, List.append_assoc]

/-! ### Closing -/

theorem closeNest_stored (h : d.body.Sound) {mark : Mark}
    (hin : (AnyMark.plain mark).Inside d.body) :
    closeNest d.stored mark = Prod.map id stored (d.closeNest mark) := by
  simp only [AnyMark.Inside, Attribute.headerSize] at hin
  rw [closeNest, Draft.closeNest, sizeFrom_stored, setLength_stored _ (by omega), rollback_stored h]
  cases d.body.setLength mark.offset (d.body.sizeFrom mark.offset) <;> rfl

theorem closeCompat_stored (h : d.body.Sound) {mark : CompatMark}
    (hgrid : (AnyMark.compat mark).OnGrid) (hin : (AnyMark.compat mark).Inside d.body) :
    closeCompat d.stored mark = Prod.map id stored (d.closeCompat mark) := by
  obtain ⟨-, hinner, hbehind⟩ := hgrid
  simp only [AnyMark.Inside, Attribute.headerSize] at hin hbehind
  rw [closeCompat, Draft.closeCompat, sizeFrom_stored]
  by_cases hdrop : d.body.sizeFrom mark.inner.offset = Attribute.headerSize
  · -- without its inner attribute the message still reaches past the outer header
    have hcut : (d.body.cut mark.inner.offset).Sound := h.cut hinner
    have hreach : mark.outer + 2 ≤ (d.body.cut mark.inner.offset).bytes.length := by
      simp only [Buffer.cut, List.length_take]
      omega
    have hset := setLength_stored (d := { d with body := d.body.cut mark.inner.offset })
      ((d.body.cut mark.inner.offset).sizeFrom mark.outer) hreach
    have hroll := rollback_stored (d := { d with body := d.body.cut mark.inner.offset }) hcut
      mark.outer
    simp only [if_pos hdrop, rollback_stored h, sizeFrom_stored, hset]
    cases (d.body.cut mark.inner.offset).setLength mark.outer
      ((d.body.cut mark.inner.offset).sizeFrom mark.outer) with
    | error e => exact congrArg (Prod.mk _) hroll
    | ok b => rfl
  · have hreach : mark.outer + 2 ≤ d.body.bytes.length := by omega
    simp only [if_neg hdrop, sizeFrom_stored, setLength_stored _ hreach]
    cases houter : d.body.setLength mark.outer (d.body.sizeFrom mark.outer) with
    | error e => exact congrArg (Prod.mk _) (rollback_stored h mark.outer)
    | ok b =>
      have hb : b.Sound := h.setLength hreach houter
      have hlength := Buffer.length_of_setLength hreach houter
      have hreached : mark.inner.offset + 2 ≤ b.bytes.length := by omega
      have hset := setLength_stored (d := { d with body := b })
        (d.body.sizeFrom mark.inner.offset) hreached
      have hroll := rollback_stored (d := { d with body := b }) hb mark.outer
      rw [Buffer.cut_of_setLength (by omega) houter] at hroll
      simp only [Except.map, hset]
      cases hclose : b.setLength mark.inner.offset (d.body.sizeFrom mark.inner.offset) with
      | error e =>
        simp only [bind, Except.bind, hclose]
        exact congrArg (Prod.mk _) hroll
      | ok b' =>
        simp only [bind, Except.bind, hclose]
        rfl

end Kept

/-! ## Steps on what is stored -/

namespace Work

variable {w : Work}

theorem kept_settleOpen (outcome : Except Error AnyMark) (draft : Draft) :
    w.kept.settleOpen outcome draft.stored = Prod.map id kept (w.settleOpen outcome draft) := by
  cases outcome <;> rfl

/-- A step on the stored bytes comes to what it comes to on the draft, and leaves the bytes of the
draft that is left. -/
theorem Sound.step_kept {s : Step} (h : w.Sound) (hs : w.Permits s) :
    w.kept.step s = Prod.map id kept (w.step s) := by
  cases s with
  | appendRaw data =>
    rw [Kept.step, Work.step, kept, Kept.appendRaw_stored h.body]
    rfl
  | append a =>
    rw [Kept.step, Work.step, kept, Kept.append_stored h.body]
    rfl
  | appendTree type capacity steps =>
    rw [Kept.step, Work.step]
    cases Tree.Work.build ⟨Tree.new type capacity, []⟩ steps with
    | error e => rfl
    | ok work =>
      dsimp only
      rw [kept, Kept.appendRaw_stored h.body]
      rfl
  | openNest type =>
    rw [Kept.step, Work.step, kept, Kept.openNest_stored h.body]
    exact kept_settleOpen ..
  | openCompat type data =>
    rw [Kept.step, Work.step, kept, Kept.openCompat_stored h.body]
    exact kept_settleOpen ..
  | close number =>
    rw [Kept.step, Work.step, kept]
    cases htake : w.nests.take? number with
    | none => rfl
    | some taken =>
      obtain ⟨mark, nests⟩ := taken
      have hinside : mark.Inside w.draft.body := by
        apply hs
        rw [closing?, htake]
        rfl
      cases mark with
      | plain mark =>
        dsimp only
        rw [Kept.closeNest_stored h.body hinside]
        rfl
      | compat mark =>
        dsimp only
        rw [Kept.closeCompat_stored h.body (marks_of_take? h.marks htake).1 hinside]
        rfl
  | setFlags flags =>
    rw [Kept.step, Work.step, kept, Kept.overwrite_flags]
    rfl
  | setSeq seq =>
    rw [Kept.step, Work.step, kept, Kept.overwrite_seq]
    rfl
  | setPid pid =>
    rw [Kept.step, Work.step, kept, Kept.overwrite_pid]
    rfl
  | refuse reason => rfl

theorem Sound.run_kept {steps : List Step} (h : w.Sound) (hin : w.ClosesInside steps) :
    w.kept.run steps = (w.run steps).kept := by
  induction steps generalizing w with
  | nil => rfl
  | cons s steps ih =>
    have hrest := ih (h.step hin.1) hin.2
    rw [Kept.run, List.foldl_cons, h.step_kept hin.1]
    exact hrest

end Work

/-- A message that is begun as a draft and as its bytes: by a type and flags, from a header, or with a
capacity of its own. -/
inductive Kept.Begun : Draft → Kept → Prop
  | new (type flags : UInt16) : Begun (Draft.new type flags) (Kept.new type flags)
  | ofHeader (h : Header) : Begun (Draft.ofHeader h) (Kept.ofHeader h)
  | withCapacity (type flags : UInt16) (capacity : Nat) :
    Begun (Draft.withCapacity type flags capacity) (Kept.withCapacity type flags capacity)

namespace Kept.Begun

variable {d₀ : Draft} {k₀ : Kept}

theorem fresh (h : Begun d₀ k₀) : Fresh d₀ := by
  cases h with
  | new type flags => exact .new type flags
  | ofHeader h => exact .ofHeader h
  | withCapacity type flags capacity => exact .withCapacity type flags capacity

theorem ofHeader_eq (h : Header) : Kept.ofHeader h = (Work.start (Draft.ofHeader h)).kept := by
  have hbare := declare_header h [] defaultCapacity
  rw [List.append_nil] at hbare
  rw [Kept.ofHeader, hbare]
  rfl

/-- Whatever length the header was given, the stored one is that of the header alone. -/
theorem kept (h : Begun d₀ k₀) : k₀ = (Work.start d₀).kept := by
  cases h with
  | new type flags => exact ofHeader_eq _
  | ofHeader h => exact ofHeader_eq h
  | withCapacity type flags capacity =>
    rw [Kept.withCapacity, Kept.new, ofHeader_eq]
    rfl

end Kept.Begun

/-- **The length in the header is that of the message, after any run.** A message is begun with a
capacity below 2 ^ 32, kept as its bytes, and put through any steps, failing ones among them. Its
bytes are those of the draft that went through the same steps. They end on the grid, are no fewer
than a header and no more than the capacity, and the length that was stored last in the header is
their number. The type is the one that the message was begun with, and the flags, number and port are
those that were set last. -/
theorem header_of_built {d₀ : Draft} {k₀ : Kept} {steps : List Step} (hbegun : Kept.Begun d₀ k₀)
    (hcapacity : d₀.capacity < UInt32.size) (hin : (Work.start d₀).ClosesInside steps) :
    let d := d₀.built steps
    let message := (k₀.run steps).message
    let header := Header.ofBytes message.bytes
    message.bytes = d.encode ∧ message.capacity = d₀.capacity ∧ d.capacity = d₀.capacity ∧
      message.bytes.length % 4 = 0 ∧ headerSize ≤ message.bytes.length ∧
      message.bytes.length ≤ message.capacity ∧
      header.length.toNat = message.bytes.length ∧ header = d.header ∧ header.type = d₀.type ∧
      header.flags = lastSet Step.flags? steps d₀.flags ∧
      header.seq = lastSet Step.seq? steps d₀.seq ∧
      header.pid = lastSet Step.pid? steps d₀.pid := by
  intro d message header
  have hstart := Work.sound_start hbegun.fresh
  have hsound : d.body.Sound := (Work.Sound.run hstart hin).body
  have hmessage : message = d.stored := by
    simp only [message, d, hbegun.kept, hstart.run_kept hin]
    rfl
  obtain ⟨htype, hflags, hseq, hpid, hbody⟩ := Draft.mk.inj (blank_run (Work.start d₀) steps)
  have hkept : d.capacity = d₀.capacity := (Buffer.mk.inj hbody).2.2
  have hbytes : message.bytes = d.encode := congrArg Buffer.bytes hmessage
  have hroom : message.capacity = d₀.capacity := by
    rw [hmessage]
    exact hkept
  have hread : header = d.header := by
    simp only [header, hbytes]
    exact Header.ofBytes_encode_append ..
  have hsize : d.encode.length = d.size := by
    rw [length_encode, size_stored hsound]
  have hwithin : d.encode.length ≤ d₀.capacity := hsize ▸ hkept ▸ hsound.room
  have hgrid : d.body.bytes.length % 4 = 0 := hsound.aligned
  have hlength : d.header.length.toNat = d.encode.length := by
    rw [hsize]
    exact UInt32.toNat_ofNat_of_lt' (by omega)
  rw [hread, hroom, hbytes]
  refine ⟨rfl, rfl, hkept, ?_, ?_, hwithin, hlength, rfl, htype, hflags, hseq, hpid⟩
  · rw [length_encode, headerSize]
    omega
  · rw [length_encode]
    omega

theorem header_of_built_sample :
    let steps : List Step := [.setFlags 5, .appendRaw [1], .openNest 2, .append ⟨3, [4, 5]⟩,
      .close none, .append ⟨6, Wire.zeros 64⟩, .close (some 0), .openCompat 7 [8], .setSeq 9,
      .close none, .setPid 10, .setSeq 11, .refuse "no such operation"]
    let message := ((Kept.withCapacity 16 1 64).run steps).message
    Kept.Begun (withCapacity 16 1 64) (Kept.withCapacity 16 1 64) ∧
      (withCapacity 16 1 64).capacity < UInt32.size ∧
      (Work.start (withCapacity 16 1 64)).ClosesInside steps ∧
      message.bytes.length = 40 ∧
      Header.ofBytes message.bytes = ⟨40, 16, 5, 11, 10⟩ := by
  intro steps message
  have hbegun : Kept.Begun (withCapacity 16 1 64) (Kept.withCapacity 16 1 64) :=
    .withCapacity 16 1 64
  have hcapacity : (withCapacity 16 1 64).capacity < UInt32.size := by decide
  have hin : (Work.start (withCapacity 16 1 64)).ClosesInside steps := by decide
  have hlength : message.bytes.length = 40 := by decide
  obtain ⟨-, -, -, -, -, -, -, hread, -⟩ := header_of_built hbegun hcapacity hin
  refine ⟨hbegun, hcapacity, hin, hlength, ?_⟩
  rw [hread]
  rfl

end Netlink.Draft
