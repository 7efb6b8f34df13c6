import Netlink.Message.Frame
import Netlink.Proofs.Wire.Records

/-! # Runs of whole messages

A packet is a complete message with its padding, whose bytes do not matter. A run of packets is
walked to its end, and the walk finds exactly their messages, in order. -/

namespace Netlink

theorem Header.ofBytes_encode_append (h : Header) (bs : Bytes) :
    ofBytes (h.encode ++ bs) = h := by
  simp only [ofBytes, encode, List.append_assoc, Wire.word32_le32_append, Wire.drop_le32_append,
    Wire.drop_le16_append, Wire.word16_le16_append, List.drop_zero]

theorem Header.encode_ofBytes {bs : Bytes} (h : bs.length = headerSize) :
    (ofBytes bs).encode = bs := by
  simp only [headerSize] at h
  have hall : bs.take 16 = bs := List.take_of_length_le (by omega)
  rw [encode, ofBytes, Wire.le32_word32 (by omega), Wire.le16_word16 (by simp; omega),
    Wire.le16_word16 (by simp; omega), Wire.le32_word32 (by simp; omega),
    Wire.le32_word32 (by simp; omega), ← List.take_add, ← List.take_add, ← List.take_add,
    ← List.take_add, hall]

/-- A complete message and the bytes that pad it to the grid. -/
structure Packet where
  header : Header
  payload : Bytes
  padding : Bytes
  length_eq : header.length.toNat = headerSize + payload.length
  length_padding : padding.length = Wire.align4 header.length.toNat - header.length.toNat

namespace Packet

/-- The packet with this payload. The length in its header is made to fit. -/
def fitting (h : Header) (payload : Bytes) (hsize : headerSize + payload.length < UInt32.size) :
    Packet where
  header := { h with length := UInt32.ofNat (headerSize + payload.length) }
  payload
  padding := Wire.zeros (Wire.align4 (headerSize + payload.length) - (headerSize + payload.length))
  length_eq := UInt32.toNat_ofNat_of_lt' hsize
  length_padding := by
    rw [Wire.length_zeros, UInt32.toNat_ofNat_of_lt' hsize]

/-- The message without its padding. -/
def bytes (p : Packet) : Bytes := p.header.encode ++ p.payload

/-- The message with its padding. -/
def record (p : Packet) : Bytes := p.bytes ++ p.padding

/-- The packets of a datagram, one behind another. -/
def records (ps : List Packet) : Bytes := ps.flatMap record

/-- The message as it is handed to a reader. -/
def message (sender : UInt32) (p : Packet) : Message := ⟨sender, p.header, p.bytes⟩

theorem length_bytes (p : Packet) : p.bytes.length = p.header.length.toNat := by
  simp [bytes, p.length_eq]

theorem length_record (p : Packet) : p.record.length = Wire.align4 p.header.length.toNat := by
  have hpad := Wire.le_align4 p.header.length.toNat
  rw [record, List.length_append, p.length_bytes, p.length_padding]
  omega

theorem records_cons (p : Packet) (ps : List Packet) : records (p :: ps) = p.record ++ records ps :=
  List.flatMap_cons

theorem records_append (ps qs : List Packet) : records (ps ++ qs) = records ps ++ records qs :=
  List.flatMap_append

/-- A run of packets is as long as their messages are with their padding. -/
theorem length_records (ps : List Packet) (sender : UInt32) :
    (records ps).length =
      ((ps.map (message sender)).flatMap fun m => Wire.padded m.bytes).length := by
  induction ps with
  | nil => rfl
  | cons p ps ih =>
    rw [records_cons, List.length_append, ih, List.map_cons, List.flatMap_cons, List.length_append,
      length_record, Wire.length_padded, message, length_bytes]

/-- A message is found at the front of whatever follows it. -/
theorem front_bytes (p : Packet) (rest : Bytes) :
    Front.of (p.bytes ++ rest) = .message p.header p.bytes (rest.drop p.padding.length) := by
  have hheader : p.bytes ++ rest = p.header.encode ++ (p.payload ++ rest) := by
    simp only [bytes, List.append_assoc]
  have hlength : ¬ p.header.length.toNat < headerSize := by
    rw [p.length_eq]
    omega
  unfold Front.of
  rw [hheader, Wire.split?_append p.header.length_encode, ← hheader]
  dsimp only
  rw [Header.ofBytes_encode, if_neg hlength, Wire.split?_append p.length_bytes]
  dsimp only
  rw [p.length_padding]

theorem front_record (p : Packet) (rest : Bytes) :
    Front.of (p.record ++ rest) = .message p.header p.bytes rest := by
  rw [record, List.append_assoc, front_bytes, List.drop_left]

end Packet

/-- What the front of some bytes is comes from the length in their first sixteen. -/
theorem Front.of_spec (bs : Bytes) :
    let header := Header.ofBytes (bs.take headerSize)
    let length := header.length.toNat
    match of bs with
    | .short => bs.length < headerSize
    | .malformed declared =>
      headerSize ≤ bs.length ∧ declared = length ∧ (length < headerSize ∨ bs.length < length)
    | .message header' bytes rest =>
      header' = header ∧ headerSize ≤ length ∧ length ≤ bs.length ∧ bytes = bs.take length ∧
        rest = bs.drop (Wire.align4 length) := by
  intro header length
  unfold of
  cases hfront : Wire.split? headerSize bs with
  | none => exact Wire.split?_eq_none_iff.mp hfront
  | some split =>
    obtain ⟨front, behind⟩ := split
    obtain ⟨hbs, hlength⟩ := Wire.split?_eq_some_iff.mp hfront
    have hlong : headerSize ≤ bs.length := by
      rw [hbs, List.length_append, hlength]
      exact Nat.le_add_right ..
    have hheader : Header.ofBytes front = header := by
      simp only [header]
      rw [hbs, List.take_left' hlength]
    dsimp only
    rw [hheader]
    by_cases hlow : length < headerSize
    · rw [if_pos hlow]
      exact ⟨hlong, rfl, .inl hlow⟩
    · rw [if_neg hlow]
      cases hsplit : Wire.split? length bs with
      | none => exact ⟨hlong, rfl, .inr (Wire.split?_eq_none_iff.mp hsplit)⟩
      | some split =>
        obtain ⟨bytes, tail⟩ := split
        obtain ⟨hbs', hbytes⟩ := Wire.split?_eq_some_iff.mp hsplit
        have halign := Wire.le_align4 length
        refine ⟨rfl, Nat.le_of_not_lt hlow, ?_, ?_, ?_⟩
        · rw [hbs', List.length_append, hbytes]
          exact Nat.le_add_right ..
        · rw [hbs', List.take_left' hbytes]
        · rw [hbs', List.drop_append, hbytes,
            List.drop_of_length_le (Nat.le_trans (Nat.le_of_eq hbytes) halign), List.nil_append]

/-- A message is as long as its header declares. -/
theorem Front.length_eq_of_message {bs bytes rest : Bytes} {header : Header}
    (h : Front.of bs = .message header bytes rest) : bytes.length = header.length.toNat := by
  have hspec := of_spec bs
  rw [h] at hspec
  obtain ⟨rfl, -, hlength, rfl, -⟩ := hspec
  exact List.length_take_of_le hlength

theorem Front.rest_of_message {bs bytes rest : Bytes} {header : Header}
    (h : Front.of bs = .message header bytes rest) :
    rest = bs.drop (Wire.align4 bytes.length) := by
  have hspec := of_spec bs
  rw [h] at hspec
  rw [length_eq_of_message h, hspec.1]
  exact hspec.2.2.2.2

/-- A message at the front of some bytes is that of a packet. If its padding is cut off, that is where
the bytes end. -/
theorem Front.packet_of_message {bs bytes rest : Bytes} {header : Header}
    (h : Front.of bs = .message header bytes rest) :
    ∃ p : Packet, p.header = header ∧ p.bytes = bytes ∧
      Wire.padded bs = p.record ++ Wire.padded rest := by
  have hspec := of_spec bs
  rw [h] at hspec
  obtain ⟨hheader, hlow, hhigh, hmessage, hrest⟩ := hspec
  rw [← hheader] at hlow hhigh hmessage hrest
  let size := header.length.toNat
  let tail := bs.drop size
  have hsize : bytes.length = size := length_eq_of_message h
  let gap := Wire.align4 size - size
  have hencode : header.encode = bytes.take headerSize := by
    rw [hmessage, List.take_take, Nat.min_eq_left hlow, hheader]
    exact Header.encode_ofBytes (List.length_take_of_le (Nat.le_trans hlow hhigh))
  have hbytes : header.encode ++ bytes.drop headerSize = bytes := by
    rw [hencode, List.take_append_drop]
  let p : Packet := {
    header
    payload := bytes.drop headerSize
    padding := tail.take gap ++ Wire.zeros (gap - tail.length)
    length_eq := by
      rw [List.length_drop, hsize]
      omega
    length_padding := by
      rw [List.length_append, List.length_take, Wire.length_zeros]
      simp only [gap, size]
      omega }
  have hbehind : tail.drop gap = rest := by
    rw [hrest, List.drop_drop, Nat.add_sub_cancel' (Wire.le_align4 size)]
  have hpadded : Wire.padded (bytes ++ tail) = bytes ++
      (tail.take gap ++ Wire.zeros (gap - tail.length)) ++ Wire.padded (tail.drop gap) := by
    have happend := Wire.padded_append bytes tail
    rwa [hsize] at happend
  refine ⟨p, rfl, hbytes, ?_⟩
  rw [Packet.record, Packet.bytes, hbytes, ← hbehind, ← hpadded, hmessage, List.take_append_drop]

namespace Frame

/-- Where the next message would begin. -/
def next (f : Frame) : Nat := f.offset + Wire.align4 f.bytes.length

theorem walkFrom_of_short {bs : Bytes} (h : Front.of bs = .short) (offset : Nat) :
    walkFrom offset bs = ⟨[], none, bs⟩ := by
  rw [walkFrom]
  split
  · rfl
  · simp_all
  · simp_all

theorem walkFrom_of_malformed {bs : Bytes} {declared : Nat} (h : Front.of bs = .malformed declared)
    (offset : Nat) : walkFrom offset bs = ⟨[], some declared, bs⟩ := by
  rw [walkFrom]
  split
  · simp_all
  · rename_i h'
    rw [h, Front.malformed.injEq] at h'
    rw [h']
  · simp_all

theorem walkFrom_of_message {bs bytes rest : Bytes} {header : Header}
    (h : Front.of bs = .message header bytes rest) (offset : Nat) :
    walkFrom offset bs =
      let tail := walkFrom (offset + Wire.align4 bytes.length) rest
      ⟨⟨offset, header, bytes⟩ :: tail.frames, tail.fault, tail.rest⟩ := by
  rw [walkFrom]
  split
  · simp_all
  · simp_all
  · rename_i h'
    rw [h, Front.message.injEq] at h'
    obtain ⟨rfl, rfl, rfl⟩ := h'
    rfl

/-- A message alone in a datagram needs no padding. -/
theorem walk_bytes (p : Packet) : walk p.bytes = ⟨[⟨0, p.header, p.bytes⟩], none, []⟩ := by
  have hfront := p.front_bytes []
  rw [List.append_nil, List.drop_nil] at hfront
  rw [walk, walkFrom_of_message hfront, walkFrom_of_short rfl]

/-- Behind a header that declares nothing behind itself zeros are no message: they declare less than
a header. -/
theorem walk_bare_zeros {h : Header} {n : Nat} (hlength : h.length = UInt32.ofNat headerSize)
    (hn : headerSize ≤ n) :
    walk (h.encode ++ Wire.zeros n) = ⟨[⟨0, h, h.encode⟩], some 0, Wire.zeros n⟩ := by
  let p : Packet := {
    header := h
    payload := []
    padding := []
    length_eq := congrArg UInt32.toNat hlength
    length_padding := by rw [hlength]; rfl }
  have hbytes : p.bytes = h.encode := List.append_nil _
  have hfront := p.front_bytes (Wire.zeros n)
  have hzeros : Front.of (Wire.zeros n) = .malformed 0 := by
    have hsplit : Wire.zeros n = Wire.zeros headerSize ++ Wire.zeros (n - headerSize) := by
      rw [Wire.zeros, Wire.zeros, Wire.zeros, List.replicate_append_replicate,
        Nat.add_sub_cancel' hn]
    rw [hsplit, Front.of, Wire.split?_append (Wire.length_zeros _)]
    rfl
  rw [hbytes] at hfront
  rw [walk, walkFrom_of_message hfront]
  exact congrArg (fun tail : Walk => Walk.mk (⟨0, h, h.encode⟩ :: tail.frames) tail.fault tail.rest)
    (walkFrom_of_malformed hzeros _)

theorem rest_of_frames {offset : Nat} {bs : Bytes} (h : (walkFrom offset bs).frames = []) :
    (walkFrom offset bs).rest = bs := by
  fun_cases walkFrom offset bs with
  | case1 hshort => rfl
  | case2 declared hmalformed => rfl
  | case3 header bytes rest hfront =>
    rw [walkFrom_of_message hfront] at h
    cases h

/-- Every frame of a walk is as long as its header declares. -/
theorem length_of_mem_walkFrom {offset : Nat} {bs : Bytes} {f : Frame}
    (h : f ∈ (walkFrom offset bs).frames) : f.bytes.length = f.header.length.toNat := by
  fun_induction walkFrom offset bs with
  | case1 => cases h
  | case2 => cases h
  | case3 offset bs header bytes rest hfront tail ih =>
    rcases List.mem_cons.mp h with rfl | htail
    · exact Front.length_eq_of_message hfront
    · exact ih htail

/-- What the walk leaves is shorter than a header, or else begins with one whose length was at
fault: it is less than the header's own, or more than there is. -/
theorem rest_walkFrom (offset : Nat) (bs : Bytes) :
    let w := walkFrom offset bs
    match w.fault with
    | none => w.rest.length < headerSize
    | some declared =>
      headerSize ≤ w.rest.length ∧
        declared = (Header.ofBytes (w.rest.take headerSize)).length.toNat ∧
        (declared < headerSize ∨ w.rest.length < declared) := by
  fun_induction walkFrom offset bs with
  | case1 offset bs hshort =>
    have hspec := Front.of_spec bs
    rwa [hshort] at hspec
  | case2 offset bs declared hmalformed =>
    have hspec := Front.of_spec bs
    rw [hmalformed] at hspec
    obtain ⟨hheader, rfl, hfault⟩ := hspec
    exact ⟨hheader, rfl, hfault⟩
  | case3 offset bs header bytes rest hfront tail ih => exact ih

/-- A record at fault has its header and declares less than that, or more than is left. -/
theorem declared_of_fault {offset : Nat} {bs : Bytes} {declared : Nat}
    (h : (walkFrom offset bs).fault = some declared) :
    headerSize ≤ (walkFrom offset bs).rest.length ∧
      (declared < headerSize ∨ (walkFrom offset bs).rest.length < declared) := by
  have hrest := rest_walkFrom offset bs
  dsimp only at hrest
  rw [h] at hrest
  exact ⟨hrest.1, hrest.2.2⟩

/-- A run of packets has no fault and leaves nothing. -/
theorem walkFrom_records (ps : List Packet) (offset : Nat) (sender : UInt32) :
    (walkFrom offset (Packet.records ps)).frames.map (Frame.message sender) =
        ps.map (Packet.message sender) ∧
      (walkFrom offset (Packet.records ps)).fault = none ∧
      (walkFrom offset (Packet.records ps)).rest = [] := by
  induction ps generalizing offset with
  | nil =>
    have hshort : Front.of (Packet.records []) = .short := rfl
    rw [walkFrom_of_short hshort]
    exact ⟨rfl, rfl, rfl⟩
  | cons p ps ih =>
    rw [Packet.records_cons, walkFrom_of_message (p.front_record _)]
    obtain ⟨hframes, hfault, hrest⟩ := ih (offset + Wire.align4 p.bytes.length)
    refine ⟨?_, hfault, hrest⟩
    rw [List.map_cons, List.map_cons, hframes]
    rfl

/-- A datagram that is a run of packets shows their messages, and nothing is wrong with it. -/
theorem walk_of_records {bs : Bytes} {ps : List Packet} (h : bs = Packet.records ps)
    (sender : UInt32) :
    (walk bs).frames.map (message sender) = ps.map (Packet.message sender) ∧
      (walk bs).error? = none ∧ (walk bs).rest = [] := by
  obtain ⟨hframes, hfault, hrest⟩ := walkFrom_records ps 0 sender
  rw [h, walk]
  refine ⟨hframes, ?_, hrest⟩
  rw [Walk.error?, hfault]
  rfl

theorem Walk.complaint?_of_fault {w : Walk} {declared : Nat} (h : w.fault = some declared) :
    w.complaint? = some (.framing (.malformed declared w.rest.length)) := by
  rw [complaint?, error?, h]
  rfl

theorem Walk.complaint?_of_none {w : Walk} (h : w.fault = none) :
    w.complaint? =
      if w.rest.isEmpty then none else some (.framing (.remnant w.rest.length)) := by
  rw [complaint?, error?, h]
  rfl

theorem Walk.complaint?_eq_none {w : Walk} : w.complaint? = none ↔ w.fault = none ∧ w.rest = [] := by
  obtain ⟨frames, fault, rest⟩ := w
  cases fault with
  | none => cases rest <;> simp [complaint?, error?]
  | some declared => simp [complaint?, error?]

theorem Walk.framing_of_error {w : Walk} {e : Error} (h : w.error? = some e) :
    ∃ fault, e = .framing fault := by
  obtain ⟨declared, -, rfl⟩ := Option.map_eq_some_iff.mp h
  exact ⟨_, rfl⟩

/-- Whatever is wrong with a datagram, it is no run of messages. -/
theorem Walk.framing_of_complaint {w : Walk} {e : Error} (h : w.complaint? = some e) :
    ∃ fault, e = .framing fault := by
  rw [complaint?] at h
  cases herror : w.error? with
  | some e' =>
    rw [herror] at h
    cases h
    exact framing_of_error herror
  | none =>
    rw [herror] at h
    change (if w.rest.isEmpty then none else some (Error.framing _)) = some e at h
    split at h
    · cases h
    · exact ⟨_, (Option.some.inj h).symm⟩

theorem packets_of_walkFrom {offset : Nat} {bs : Bytes} (hfault : (walkFrom offset bs).fault = none)
    (hrest : (walkFrom offset bs).rest = []) :
    ∃ ps, Wire.padded bs = Packet.records ps ∧
      ∀ sender, (walkFrom offset bs).frames.map (message sender) =
        ps.map (Packet.message sender) := by
  fun_induction walkFrom offset bs with
  | case1 offset bs hshort =>
    obtain rfl : bs = [] := hrest
    exact ⟨[], rfl, fun _ => rfl⟩
  | case2 => cases hfault
  | case3 offset bs header bytes rest hfront tail ih =>
    obtain ⟨ps, hps, hmessages⟩ := ih hfault hrest
    obtain ⟨p, rfl, rfl, hp⟩ := Front.packet_of_message hfront
    refine ⟨p :: ps, ?_, fun sender => ?_⟩
    · rw [hp, hps, Packet.records_cons]
    · rw [List.map_cons, hmessages, List.map_cons]
      rfl

/-- A datagram that nothing is wrong with is a run of packets, once its end is padded. -/
theorem packets_of_clean {bs : Bytes} (h : (walk bs).complaint? = none) :
    ∃ ps, Wire.padded bs = Packet.records ps ∧
      ∀ sender, (walk bs).frames.map (message sender) = ps.map (Packet.message sender) := by
  obtain ⟨hfault, hrest⟩ := Walk.complaint?_eq_none.mp h
  exact packets_of_walkFrom hfault hrest

end Frame
end Netlink
