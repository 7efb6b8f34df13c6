import Netlink.Proofs.Message.Packets

/-! # One message at a time

A cursor goes through a datagram and answers with one message at a time. It stays where it is when
what is left is shorter than a header, and after the one failure with which it answers a header at
fault. The walk of a datagram is what a cursor answers from the start of it. -/

namespace Netlink.Frame

/-- What is left for a cursor to answer: the messages of a walk and the failure that ended it. -/
def Walk.items (w : Walk) : List (Except Error Frame) :=
  w.frames.map .ok ++ w.error?.toList.map .error

/-- A place in a datagram. -/
structure Cursor where
  data : Bytes
  offset : Nat
  /-- A header at fault has been met. -/
  failed : Bool
  deriving DecidableEq, Repr

namespace Cursor

def start (data : Bytes) : Cursor := ⟨data, 0, false⟩

/-- The bytes in front of the cursor. -/
def rest (c : Cursor) : Bytes := c.data.drop c.offset

/-- How many bytes have not been gone through. -/
def remnant (c : Cursor) : Nat := c.data.length - c.offset

/-- The next message, or a failure, or nothing; and the cursor after that. -/
def next (c : Cursor) : Option (Except Error Frame) × Cursor :=
  if c.failed then (none, c)
  else match Front.of c.rest with
    | .short => (none, c)
    | .malformed declared =>
      (some (.error (.framing (.malformed declared c.rest.length))), { c with failed := true })
    | .message header bytes _ =>
      (some (.ok ⟨c.offset, header, bytes⟩),
        { c with offset := c.offset + min (Wire.align4 bytes.length) c.rest.length })

/-- The cursor after `n` answers. -/
def after (c : Cursor) : Nat → Cursor
  | 0 => c
  | n + 1 => c.next.2.after n

/-- The walk of what is in front of the cursor. -/
def walk (c : Cursor) : Walk := if c.failed then ⟨[], none, c.rest⟩ else walkFrom c.offset c.rest

theorem length_rest (c : Cursor) : c.rest.length = c.remnant := List.length_drop

/-- It does not matter where the messages of no bytes would begin. -/
theorem walkFrom_min (data : Bytes) (offset size : Nat) :
    let offset' := offset + min size (data.drop offset).length
    walkFrom offset' (data.drop offset') =
      walkFrom (offset + size) (data.drop (offset + size)) := by
  intro offset'
  rcases Nat.le_total size (data.drop offset).length with hle | hle
  · simp only [offset', Nat.min_eq_left hle]
  · have hlength : (data.drop offset).length = data.length - offset := List.length_drop
    have hshort : data.drop offset' = [] := by
      rw [List.drop_eq_nil_iff]
      simp only [offset', Nat.min_eq_right hle]
      omega
    have hlong : data.drop (offset + size) = [] := by
      rw [List.drop_eq_nil_iff]
      omega
    rw [hshort, hlong, walkFrom_of_short rfl, walkFrom_of_short rfl]

/-- A cursor answers with the first item of its walk, and the others are those of the walk after
that. Both walks leave the same. -/
theorem next_spec (c : Cursor) :
    c.next.1 = c.walk.items.head? ∧ c.next.2.walk.items = c.walk.items.tail ∧
      c.next.2.walk.rest = c.walk.rest := by
  unfold next
  split
  · rename_i hfailed
    rw [walk, if_pos hfailed]
    exact ⟨rfl, rfl, rfl⟩
  · rename_i hgoing
    have hwalk : c.walk = walkFrom c.offset c.rest := if_neg hgoing
    split
    · rename_i hshort
      rw [hwalk, walkFrom_of_short hshort]
      exact ⟨rfl, rfl, rfl⟩
    · rename_i declared hmalformed
      rw [hwalk, walkFrom_of_malformed hmalformed]
      exact ⟨rfl, rfl, rfl⟩
    · rename_i header bytes behind hmessage
      have hbehind := Front.rest_of_message hmessage
      rw [rest, List.drop_drop] at hbehind
      have hnext : walk { c with offset := c.offset + min (Wire.align4 bytes.length) c.rest.length } =
          walkFrom (c.offset + Wire.align4 bytes.length) behind := by
        rw [walk, if_neg hgoing, hbehind]
        exact walkFrom_min c.data c.offset _
      rw [hnext, hwalk, walkFrom_of_message hmessage]
      exact ⟨rfl, rfl, rfl⟩

theorem walk_after (c : Cursor) (n : Nat) :
    (c.after n).walk.items = c.walk.items.drop n ∧ (c.after n).walk.rest = c.walk.rest := by
  induction n generalizing c with
  | zero => exact ⟨rfl, rfl⟩
  | succ n ih =>
    obtain ⟨-, hitems, hrest⟩ := c.next_spec
    obtain ⟨hitems', hrest'⟩ := ih c.next.2
    rw [hitems, List.drop_tail] at hitems'
    exact ⟨hitems', hrest'.trans hrest⟩

/-- A cursor that has nothing to answer stands where the walk ends. -/
theorem rest_of_items {c : Cursor} (h : c.walk.items = []) : c.rest = c.walk.rest := by
  unfold walk at h ⊢
  split
  · rfl
  · rename_i hgoing
    rw [if_neg hgoing] at h
    have hframes : (walkFrom c.offset c.rest).frames = [] :=
      List.map_eq_nil_iff.mp (List.append_eq_nil_iff.mp h).1
    exact (rest_of_frames hframes).symm

end Cursor

/-! ## Where the messages stand -/

/-- The frame is the message that stands at its offset in the data. -/
structure StandsIn (data : Bytes) (f : Frame) : Prop where
  header : f.header = Header.ofBytes ((data.drop f.offset).take headerSize)
  declared : headerSize ≤ f.header.length.toNat
  inside : f.offset + f.header.length.toNat ≤ data.length
  bytes : f.bytes = (data.drop f.offset).take f.header.length.toNat
  payload : f.payload = ((data.drop f.offset).take f.header.length.toNat).drop headerSize

/-- The frames stand in the data one behind another, each with its padding, from one offset to
another. The padding of the last may reach beyond the data. -/
inductive Path (data : Bytes) : Nat → List Frame → Nat → Prop
  | nil (offset : Nat) : Path data offset [] offset
  | cons {f : Frame} {fs : List Frame} {stop : Nat} (stands : f.StandsIn data)
      (behind : Path data f.next fs stop) : Path data f.offset (f :: fs) stop

theorem standsIn_of_message {data bytes rest : Bytes} {offset : Nat} {header : Header}
    (h : Front.of (data.drop offset) = .message header bytes rest) :
    StandsIn data ⟨offset, header, bytes⟩ := by
  have hspec := Front.of_spec (data.drop offset)
  rw [h] at hspec
  obtain ⟨rfl, hdeclared, hlength, rfl, -⟩ := hspec
  have hpositive : 0 < headerSize := by decide
  rw [List.length_drop] at hlength
  refine ⟨rfl, hdeclared, ?_, rfl, rfl⟩
  dsimp only
  omega

theorem path_walkFrom (data : Bytes) (offset : Nat) :
    ∃ stop, Path data offset (walkFrom offset (data.drop offset)).frames stop ∧
      (walkFrom offset (data.drop offset)).rest = data.drop stop := by
  generalize hbs : data.drop offset = bs
  fun_induction walkFrom offset bs with
  | case1 offset bs hshort => exact ⟨offset, .nil offset, hbs.symm⟩
  | case2 offset bs declared hmalformed => exact ⟨offset, .nil offset, hbs.symm⟩
  | case3 offset bs header bytes rest hfront tail ih =>
    obtain rfl := hbs
    have hrest := Front.rest_of_message hfront
    rw [List.drop_drop] at hrest
    obtain ⟨stop, hpath, hleft⟩ := ih hrest.symm
    exact ⟨stop, .cons (standsIn_of_message hfront) hpath, hleft⟩

theorem Path.stands {data : Bytes} {start stop : Nat} {fs : List Frame}
    (h : Path data start fs stop) : ∀ f ∈ fs, f.StandsIn data := by
  induction h with
  | nil => exact fun f hf => absurd hf List.not_mem_nil
  | cons hstands _ ih => exact List.forall_mem_cons.mpr ⟨hstands, ih⟩

/-- Every message of a walk stands in the data. -/
theorem standsIn_of_mem_walk {data : Bytes} {f : Frame} (h : f ∈ (walk data).frames) :
    f.StandsIn data := by
  obtain ⟨stop, hpath, -⟩ := path_walkFrom data 0
  exact hpath.stands f h

/-- **The walk loses and invents nothing.** Whatever the bytes are, a cursor answers with the messages
of their walk in order, then with the failure that ended the walk, if one did, and with nothing ever
after; and then the bytes in front of it are those that the walk left. The messages stand in the bytes
one behind another from the first byte on, each as its header declares. They end where fewer bytes
than a header are left, or where a header declares less than itself or more than there is; only the
latter is a failure. -/
theorem walk_exact (data : Bytes) :
    let w := Frame.walk data
    (∀ n, ((Cursor.start data).after n).next.1 = w.items[n]?) ∧
      (∀ n, w.items.length ≤ n → ((Cursor.start data).after n).rest = w.rest ∧
        ((Cursor.start data).after n).remnant = w.rest.length) ∧
      ∃ stop, Path data 0 w.frames stop ∧ w.rest = data.drop stop ∧
        match w.fault with
        | none => w.rest.length < headerSize
        | some declared =>
          headerSize ≤ w.rest.length ∧
            declared = (Header.ofBytes (w.rest.take headerSize)).length.toNat ∧
            (declared < headerSize ∨ w.rest.length < declared) := by
  intro w
  have hstart : (Cursor.start data).walk = w := rfl
  have hafter := (Cursor.start data).walk_after
  rw [hstart] at hafter
  refine ⟨fun n => ?_, fun n hn => ?_, ?_⟩
  · rw [(Cursor.next_spec _).1, (hafter n).1, List.head?_drop]
  · have hdone : ((Cursor.start data).after n).walk.items = [] := by
      rw [(hafter n).1, List.drop_of_length_le hn]
    have hrest := (Cursor.rest_of_items hdone).trans (hafter n).2
    exact ⟨hrest, by rw [← Cursor.length_rest, hrest]⟩
  · obtain ⟨stop, hpath, hrest⟩ := path_walkFrom data 0
    exact ⟨stop, hpath, hrest, rest_walkFrom 0 data⟩

end Netlink.Frame
