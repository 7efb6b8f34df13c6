import Netlink.Proofs.Attribute.Division
import Netlink.Proofs.Attribute.Index
import Netlink.Proofs.Message.Packets
import Netlink.Proofs.Message.Replies
import Netlink.Proofs.Wire.Text

/-! # Attributes behind an echoed request

The attributes of an ERROR begin on the grid behind what is echoed of the request. The reader looks for
them right behind the last byte that the request declares, which is up to three bytes before that. From
two or three bytes before there is no record to be read. From one byte before, the first record is as
long as the lower byte of the true length says, and of no type that is looked for; and the records behind
it that have such a type are made of the zeros behind the text. -/

namespace Netlink

/-- What the kernel puts into an ERROR: the code, what it echoes of the request with its padding, and the
attributes. -/
def ErrorReply.payload (code : Int32) (echo : Bytes) (as : List Attribute) : Bytes :=
  Wire.le32 code.toUInt32 ++ Wire.padded echo ++ Attribute.encodeAll as

/-! ## Zeros that end a list -/

namespace Attribute

/-- Behind a zero byte stand only zero bytes. -/
def ZeroTailed (bs : Bytes) : Prop := bs.Pairwise fun b c => b = 0 → c = 0

theorem ZeroTailed.drop {bs : Bytes} (h : ZeroTailed bs) (n : Nat) : ZeroTailed (bs.drop n) :=
  List.Pairwise.drop h

theorem zeroTailed_append_zeros {bs : Bytes} (h : 0 ∉ bs) (n : Nat) :
    ZeroTailed (bs ++ Wire.zeros n) := by
  refine List.pairwise_append.mpr ⟨?_, ?_, ?_⟩
  · exact List.pairwise_of_forall_mem_list fun b hb c _ hzero => absurd (hzero ▸ hb) h
  · exact List.pairwise_replicate.mpr (.inr fun _ => rfl)
  · exact fun b _ c hc _ => List.eq_of_mem_replicate hc

theorem front_cons (b₀ b₁ b₂ b₃ : UInt8) (bs : Bytes) :
    front (b₀ :: b₁ :: b₂ :: b₃ :: bs) =
      ⟨UInt16.ofNat (b₀.toNat + 256 * b₁.toNat), UInt16.ofNat (b₂.toNat + 256 * b₃.toNat)⟩ := rfl

theorem exists_cons_of_headerSize_le {bs : Bytes} (h : headerSize ≤ bs.length) :
    ∃ b₀ b₁ b₂ b₃ rest, bs = b₀ :: b₁ :: b₂ :: b₃ :: rest := by
  obtain _ | ⟨b₀, bs⟩ := bs
  · exact absurd h (show ¬ 4 ≤ 0 by decide)
  obtain _ | ⟨b₁, bs⟩ := bs
  · exact absurd h (show ¬ 4 ≤ 1 by decide)
  obtain _ | ⟨b₂, bs⟩ := bs
  · exact absurd h (show ¬ 4 ≤ 2 by decide)
  obtain _ | ⟨b₃, bs⟩ := bs
  · exact absurd h (show ¬ 4 ≤ 3 by decide)
  exact ⟨b₀, b₁, b₂, b₃, bs, rfl⟩

/-- The upper byte of a type below 256 is zero, so that a list whose zeros end it has only zeros in the
payload behind. -/
theorem ZeroTailed.payload {bs : Bytes} (h : ZeroTailed bs) :
    ∀ a ∈ (walk bs).attributes, a.type.toNat < 256 → ∀ b ∈ a.payload, b = 0 := by
  fun_induction walk bs with
  | case1 bs hnone => exact fun a ha => absurd ha List.not_mem_nil
  | case2 bs a rest hsome tail ih =>
    have hspec := next?_spec bs
    rw [hsome] at hspec
    obtain ⟨hlow, hhigh, rfl, rfl⟩ := hspec
    refine List.forall_mem_cons.mpr ⟨?_, ih (h.drop _)⟩
    intro htype b hb
    obtain ⟨b₀, b₁, b₂, b₃, rest, rfl⟩ := exists_cons_of_headerSize_le (Nat.le_trans hlow hhigh)
    have hzero : b₃ = 0 := by
      have hb₂ := b₂.toNat_lt
      have hb₃ := b₃.toNat_lt
      have hvalue : (UInt16.ofNat (b₂.toNat + 256 * b₃.toNat)).toNat = b₂.toNat + 256 * b₃.toNat :=
        UInt16.toNat_ofNat_of_lt' (by show _ < 65536; omega)
      have hsmall : (UInt16.ofNat (b₂.toNat + 256 * b₃.toNat)).toNat < 256 := htype
      refine UInt8.toNat_inj.mp ?_
      show b₃.toNat = 0
      omega
    have hbehind : ∀ c ∈ rest, c = 0 := fun c hc => (List.pairwise_cons.mp (h.drop 3)).1 c hc hzero
    rw [List.drop_take] at hb
    exact hbehind b (List.mem_of_mem_take hb)

/-- From two zero bytes no record is read. -/
theorem stuck_zero_zero (bs : Bytes) : Stuck (0 :: 0 :: bs) := by
  rcases Nat.lt_or_ge (0 :: 0 :: bs).length headerSize with hshort | hlong
  · exact .inl hshort
  · obtain ⟨b₀, b₁, b₂, b₃, rest, hbs⟩ := exists_cons_of_headerSize_le hlong
    obtain ⟨hfirst, hbs⟩ := List.cons.inj hbs
    obtain ⟨hsecond, rfl⟩ := List.cons.inj hbs
    have hnone : (front (0 :: 0 :: b₂ :: b₃ :: rest)).length.toNat < headerSize := by
      show (UInt16.ofNat 0).toNat < 4
      decide
    exact .inr (.inl hnone)

/-- The bytes of a record, those of its header one by one. -/
theorem encode_eq_cons {a : Attribute} (h : a.Declarable) :
    a.encode = UInt8.ofNat a.recordSize :: UInt8.ofNat (a.recordSize / 256) ::
      UInt8.ofNat a.type.toNat :: UInt8.ofNat (a.type.toNat / 256) ::
        (a.payload ++ Wire.zeros (Wire.align4 a.recordSize - a.recordSize)) := by
  have hlength : Wire.le16 (AttributeHeader.ofSize a.type a.payload.length).length =
      Wire.toLE 2 a.recordSize := congrArg (Wire.toLE 2) (toNat_length_ofSize h)
  have hrecord : ((AttributeHeader.ofSize a.type a.payload.length).encode ++ a.payload).length =
      a.recordSize := by simp [recordSize]
  rw [encode, Wire.padded, hrecord, AttributeHeader.encode, hlength]
  rfl

/-- From one byte before a record its size is read as if it were its lower byte only, and 256 times as
large; and the upper byte of the type is the lower one of the record's. -/
theorem front_shifted {a : Attribute} (h : a.Declarable) (rest : Bytes) :
    let header := front (0 :: (a.encode ++ rest))
    header.length.toNat = 256 * (a.recordSize % 256) ∧
      header.type.toNat = a.recordSize / 256 + 256 * (a.type.toNat % 256) := by
  have hbytes := encode_eq_cons h
  have hsize : a.recordSize < 65536 := h
  have hbyte (n : Nat) : (UInt8.ofNat n).toNat = n % 256 := UInt8.toNat_ofNat'
  have hword {n : Nat} (hn : n < 65536) : (UInt16.ofNat n).toNat = n := UInt16.toNat_ofNat_of_lt' hn
  have hzero : (0 : UInt8).toNat = 0 := rfl
  intro header
  simp only [header, hbytes, List.cons_append, front_cons, hbyte, hzero, Nat.zero_add]
  rw [hword (by omega), hword (by omega)]
  exact ⟨rfl, by omega⟩

/-- From one byte before fewer than 255 bytes of records none is read. -/
theorem stuck_shifted {a : Attribute} (h : a.Declarable) {rest : Bytes}
    (hshort : (a.encode ++ rest).length < 255) : Stuck (0 :: (a.encode ++ rest)) := by
  obtain ⟨hlength, -⟩ := front_shifted h rest
  have hheader : headerSize = 4 := rfl
  have hcount : (0 :: (a.encode ++ rest)).length < 256 := Nat.succ_lt_succ hshort
  right
  omega

/-- Behind the header of a record whose zeros end it, its zeros end what is left. -/
theorem zeroTailed_drop_shifted {a : Attribute} (h : a.Declarable) {n : Nat} {bs : Bytes}
    (hpayload : a.payload = bs ++ Wire.zeros n) (hbs : 0 ∉ bs) {offset : Nat}
    (hoffset : headerSize < offset) : ZeroTailed ((0 :: a.encode).drop offset) := by
  have hzeros : a.payload ++ Wire.zeros (Wire.align4 a.recordSize - a.recordSize) =
      bs ++ Wire.zeros (n + (Wire.align4 a.recordSize - a.recordSize)) := by
    rw [hpayload, List.append_assoc]
    congr 1
    exact List.replicate_append_replicate
  obtain ⟨k, rfl⟩ : ∃ k, offset = k + 5 := ⟨offset - 5, (Nat.sub_add_cancel hoffset).symm⟩
  rw [encode_eq_cons h]
  simp only [List.drop_succ_cons, hzeros]
  exact (zeroTailed_append_zeros hbs _).drop k

/-- What is read from one byte before a record whose zeros end it: nothing, or first a record that is as
long as 256 bytes or more and has a type of 256 or more. So any record of a lower type has only zeros in
its payload. -/
theorem payload_of_shifted {a : Attribute} (h : a.Declarable) (htype : a.type.toNat % 256 ≠ 0)
    {n : Nat} {bs : Bytes} (hpayload : a.payload = bs ++ Wire.zeros n) (hbs : 0 ∉ bs) :
    ∀ b ∈ (walk (0 :: a.encode)).attributes, b.type.toNat < 256 →
      248 ≤ a.payload.length ∧ ∀ c ∈ b.payload, c = 0 := by
  obtain ⟨hlength, hupper⟩ := front_shifted h []
  rw [List.append_nil] at hlength hupper
  have hspec := next?_spec (0 :: a.encode)
  cases hnext : next? (0 :: a.encode) with
  | none =>
    rw [walk_of_next?_none hnext]
    exact fun b hb => absurd hb List.not_mem_nil
  | some taken =>
    obtain ⟨first, rest⟩ := taken
    rw [hnext] at hspec
    obtain ⟨hlow, hhigh, rfl, hrest⟩ := hspec
    have hsize : (0 :: a.encode).length = Wire.align4 a.recordSize + 1 := by
      rw [List.length_cons, length_encode]
    have hgrid := Wire.align4_lt a.recordSize
    have hpayloadSize : a.recordSize = 4 + a.payload.length := rfl
    have hheader : headerSize = 4 := rfl
    have hlong : 248 ≤ a.payload.length := by omega
    have hbehind := Wire.le_align4 (front (0 :: a.encode)).length.toNat
    have htail : ZeroTailed rest := hrest ▸ zeroTailed_drop_shifted h hpayload hbs (by omega)
    rw [walk_of_next?_some hnext]
    refine List.forall_mem_cons.mpr ⟨?_, fun b hb hlower => ⟨hlong, htail.payload b hb hlower⟩⟩
    intro hlower
    have hlower' : (front (0 :: a.encode)).type.toNat < 256 := hlower
    omega

theorem text_of_zeros {a : Attribute} (h : ∀ b ∈ a.payload, b = 0) : a.text = .ok "" := by
  have hnone : Wire.Utf8.untilNul a.payload = [] := by
    rw [Wire.Utf8.untilNul]
    cases hpayload : a.payload with
    | nil => rfl
    | cons b bs =>
      have hzero : b = 0 := h b (hpayload ▸ List.mem_cons_self)
      rw [hzero]
      rfl
  rw [text, hnone]
  rfl

end Attribute

namespace Ack

/-- The text that is read from the attributes. -/
def textIn (bs : Bytes) : Option String := textOf (Attribute.Table.read maxType bs).value

theorem textIn_eq (bs : Bytes) :
    textIn bs =
      ((Attribute.walk bs).attributes.find? (·.type = textType)).bind (·.text.toOption) := by
  have hslot : textType ≤ maxType := by decide
  exact congrArg (Option.bind · _) (Attribute.Table.get?_fileAll_zero hslot _)

theorem textIn_of_stuck {bs : Bytes} (h : Attribute.Stuck bs) : textIn bs = none := by
  rw [textIn_eq, Attribute.walk_of_next?_none (Attribute.next?_eq_none_iff.mpr h)]
  rfl

variable {text : String} {as : List Attribute}

theorem textIn_encodeAll (hdeclarable : ∀ a ∈ as, a.Declarable) (htext : '\x00' ∉ text.toList)
    (hfirst : as.find? (·.type = textType) = some (.ofText textType text)) :
    textIn (Attribute.encodeAll as) = some text := by
  rw [textIn_eq, Attribute.walk_encodeAll hdeclarable, hfirst, Option.bind_some,
    Attribute.text_ofText htext]
  rfl

/-- What is read from one byte before the record of a text is not that text. -/
theorem textIn_shifted_ne (hdeclarable : (Attribute.ofText textType text).Declarable)
    (htext : '\x00' ∉ text.toList) :
    textIn (0 :: (Attribute.ofText textType text).encode) ≠ some text := by
  have hpayload : (Attribute.ofText textType text).payload =
      Wire.Utf8.encode text ++ Wire.zeros 1 := rfl
  have htype : (Attribute.ofText textType text).type.toNat % 256 ≠ 0 := by
    show textType.toNat % 256 ≠ 0
    decide
  have hread := Attribute.payload_of_shifted hdeclarable htype hpayload
    (Wire.Utf8.zero_notMem_encode htext)
  rw [textIn_eq]
  cases hfound : (Attribute.walk (0 :: (Attribute.ofText textType text).encode)).attributes.find?
      (·.type = textType) with
  | none => exact fun hsome => absurd hsome.symm (Option.some_ne_none _)
  | some a =>
    have htype : a.type = textType := by simpa using List.find?_some hfound
    have hlower : a.type.toNat < 256 := by rw [htype]; decide
    obtain ⟨hlong, hzeros⟩ := hread a (List.mem_of_find?_eq_some hfound) hlower
    rw [Option.bind_some, Attribute.text_of_zeros hzeros]
    intro hsame
    -- An empty text takes nine bytes with its header, too few for the record that is read first.
    obtain rfl : "" = text := Option.some.inj hsame
    exact absurd hlong (by decide)

end Ack

/-! ## The fixed part -/

namespace ErrorReply

variable {request : Header} {body : Bytes} {flags : UInt16}

theorem length_fixed (code : Int32) (request : Header) :
    (Wire.le32 code.toUInt32 ++ request.encode).length = size := by
  simp [Netlink.headerSize, size]

/-- The parts of an ERROR: the fixed one, the rest of what is echoed with its padding, and the
attributes. -/
theorem payload_eq (code : Int32) (request : Header) (body : Bytes) (as : List Attribute) :
    payload code (request.encode ++ body) as = Wire.le32 code.toUInt32 ++ request.encode ++
      (body ++ (Wire.zeros (Wire.align4 (headerSize + body.length) - (headerSize + body.length)) ++
        Attribute.encodeAll as)) := by
  simp only [payload, Wire.padded, List.append_assoc, List.length_append, Header.length_encode]

theorem decode_payload (code : Int32) (request : Header) (body : Bytes) (as : List Attribute) :
    decode (payload code (request.encode ++ body) as) = .ok ⟨code, request⟩ := by
  have hrequest : (Wire.le32 code.toUInt32 ++ request.encode).drop 4 = request.encode :=
    List.drop_left' (Wire.length_le32 _)
  rw [decode, payload_eq, Wire.split?_append (length_fixed code request)]
  dsimp only
  rw [ofBytes, Wire.word32_le32_append, Int32.toInt32_toUInt32, hrequest, Header.ofBytes_encode]

/-- The attributes of an answer that is not capped are looked for right behind the request, in front of
its padding. -/
theorem attributeBytes_whole (hwhole : flags &&& MessageFlag.capped = 0)
    (hlength : request.length.toNat = headerSize + body.length) (code : Int32) (as : List Attribute) :
    attributeBytes ⟨code, request⟩ flags (payload code (request.encode ++ body) as) =
      Wire.zeros (Wire.align4 request.length.toNat - request.length.toNat) ++
        Attribute.encodeAll as := by
  have hbody : request.payloadSize = body.length := by
    rw [Header.payloadSize, hlength, Nat.add_sub_cancel_left]
  rw [attributeBytes, if_pos hwhole, hbody, payload_eq, ← List.drop_drop,
    List.drop_left' (length_fixed code request), List.drop_left, hlength]

/-- Those of a capped answer are where they begin. -/
theorem attributeBytes_capped (hcapped : flags &&& MessageFlag.capped ≠ 0) (code : Int32)
    (request : Header) (as : List Attribute) :
    attributeBytes ⟨code, request⟩ flags (payload code request.encode as) =
      Attribute.encodeAll as := by
  have hbytes := payload_eq code request [] as
  rw [List.append_nil] at hbytes
  rw [attributeBytes, if_neg hcapped, hbytes]
  exact List.drop_left' (length_fixed code request)

end ErrorReply

namespace Ack

variable {header request : Header} {body : Bytes} {text : String} {as : List Attribute}

/-- What an ERROR with attributes says: its code, its text, and the header of the request unless it is
capped. -/
theorem ofError_payload (hannounced : announced header) (code : Int32) (request : Header)
    (body : Bytes) (as : List Attribute) :
    ∃ ack, (ofError header (ErrorReply.payload code (request.encode ++ body) as)).value = some ack ∧
      ack.code = code ∧
      ack.text = textIn (ErrorReply.attributeBytes ⟨code, request⟩ header.flags
        (ErrorReply.payload code (request.encode ++ body) as)) ∧
      ack.request = if header.has MessageFlag.capped then none else some request := by
  rw [ofError, if_pos hannounced, ErrorReply.decode_payload]
  exact ⟨_, rfl, rfl, rfl, rfl⟩

/-- From padding on no text is found, unless one byte of it stands before 255 bytes or more. -/
theorem textIn_zeros_append (hdeclarable : ∀ a ∈ as, a.Declarable) {n : Nat} (hsome : 0 < n)
    (hmany : n ≠ 1 ∨ (Attribute.encodeAll as).length < 255) :
    textIn (Wire.zeros n ++ Attribute.encodeAll as) = none := by
  refine textIn_of_stuck ?_
  obtain ⟨k, rfl⟩ := Nat.exists_eq_add_of_lt hsome
  rw [Nat.zero_add]
  cases k with
  | succ k => exact Attribute.stuck_zero_zero _
  | zero =>
    have hshort : (Attribute.encodeAll as).length < 255 := hmany.resolve_left (absurd rfl)
    cases as with
    | nil => exact .inl (show 1 < 4 by decide)
    | cons a as => exact Attribute.stuck_shifted (hdeclarable a List.mem_cons_self) hshort

/-- From padding on a text is not found if it is alone. -/
theorem textIn_zeros_text_ne (hdeclarable : (Attribute.ofText textType text).Declarable)
    (htext : '\x00' ∉ text.toList) {n : Nat} (hsome : 0 < n) :
    textIn (Wire.zeros n ++ Attribute.encodeAll [.ofText textType text]) ≠ some text := by
  by_cases hone : n = 1
  · subst hone
    rw [Attribute.encodeAll_cons]
    have hnothing : Attribute.encodeAll [] = [] := rfl
    rw [hnothing, List.append_nil]
    exact textIn_shifted_ne hdeclarable htext
  · rw [textIn_zeros_append (List.forall_mem_singleton.mpr hdeclarable) hsome (.inl hone)]
    exact (Option.some_ne_none text).symm

/-- **The text of an acknowledgement is found behind a request that ends on the grid.** Take any code,
any request whose header declares its length, and any attributes of which the first of a text's type is
made from a text without a zero character. A capped answer gives the code and the text. One that is not
capped gives the code and the header of the request, and it gives the text if the request's length is a
multiple of four. Behind any other request there is no text, unless one byte pads it and the attributes
take 255 bytes or more; and the text is not found there either if it is the only attribute. -/
theorem text_behind_request (hannounced : announced header)
    (hlength : request.length.toNat = headerSize + body.length)
    (hdeclarable : ∀ a ∈ as, a.Declarable) (htext : '\x00' ∉ text.toList)
    (hfirst : as.find? (·.type = textType) = some (.ofText textType text)) (code : Int32) :
    if header.has MessageFlag.capped then
      ∃ ack, (ofError header (ErrorReply.payload code request.encode as)).value = some ack ∧
        ack.code = code ∧ ack.text = some text ∧ ack.request = none
    else
      ∃ ack, (ofError header (ErrorReply.payload code (request.encode ++ body) as)).value = some ack ∧
        ack.code = code ∧ ack.request = some request ∧
        (request.length.toNat % 4 = 0 → ack.text = some text) ∧
        (request.length.toNat % 4 ≠ 0 →
          request.length.toNat % 4 ≠ 3 ∨ (Attribute.encodeAll as).length < 255 → ack.text = none) ∧
        (as = [.ofText textType text] →
          (ack.text = some text ↔ request.length.toNat % 4 = 0)) := by
  have hfound : textIn (Attribute.encodeAll as) = some text :=
    textIn_encodeAll hdeclarable htext hfirst
  split
  · rename_i hcapped
    have hflag : header.flags &&& MessageFlag.capped ≠ 0 := by simpa [Header.has] using hcapped
    obtain ⟨ack, hvalue, hcode, hsaid, hrequest⟩ := ofError_payload hannounced code request [] as
    rw [List.append_nil] at hvalue hsaid
    rw [ErrorReply.attributeBytes_capped hflag, hfound] at hsaid
    rw [if_pos hcapped] at hrequest
    exact ⟨ack, hvalue, hcode, hsaid, hrequest⟩
  · rename_i hwhole
    have hflag : header.flags &&& MessageFlag.capped = 0 := by simpa [Header.has] using hwhole
    obtain ⟨ack, hvalue, hcode, hsaid, hrequest⟩ := ofError_payload hannounced code request body as
    rw [ErrorReply.attributeBytes_whole hflag hlength] at hsaid
    rw [if_neg hwhole] at hrequest
    have hgrid := Wire.le_align4 request.length.toNat
    have hnear := Wire.align4_lt request.length.toNat
    have hmod := Wire.align4_mod request.length.toNat
    generalize hgap : Wire.align4 request.length.toNat - request.length.toNat = gap at hsaid
    have hon : request.length.toNat % 4 = 0 → ack.text = some text := by
      intro hmultiple
      obtain rfl : gap = 0 := by omega
      exact hsaid.trans hfound
    have hoff (hno : request.length.toNat % 4 ≠ 0)
        (hmany : request.length.toNat % 4 ≠ 3 ∨ (Attribute.encodeAll as).length < 255) :
        ack.text = none :=
      hsaid.trans (textIn_zeros_append hdeclarable (by omega) (hmany.imp_left (by omega)))
    refine ⟨ack, hvalue, hcode, hrequest, hon, hoff, ?_⟩
    rintro rfl
    refine ⟨fun hread => ?_, hon⟩
    by_cases hsome : 0 < gap
    · exact absurd (hsaid.symm.trans hread)
        (textIn_zeros_text_ne (hdeclarable _ List.mem_cons_self) htext hsome)
    · omega

/-- A request of twenty bytes is refused with a text. -/
theorem text_behind_request_sample :
    let header : Header := ⟨48, MessageType.error, MessageFlag.ackAttributes, 1, 2⟩
    let request : Header := ⟨20, 18, 769, 7, 0⟩
    ∃ ack, (ofError header (ErrorReply.payload (-22) (request.encode ++ [1, 2, 3, 4])
        [.ofText textType "no"])).value = some ack ∧
      ack.code = -22 ∧ ack.request = some request ∧ ack.text = some "no" := by
  intro header request
  have hannounced : announced header := by decide
  have hlength : request.length.toNat = headerSize + ([1, 2, 3, 4] : Bytes).length := by decide
  have hdeclarable : ∀ a ∈ [Attribute.ofText textType "no"], a.Declarable := by
    refine List.forall_mem_singleton.mpr ?_
    unfold Attribute.Declarable
    decide
  have htext : '\x00' ∉ "no".toList := by decide
  have hfirst : [Attribute.ofText textType "no"].find? (·.type = textType) =
      some (.ofText textType "no") := by decide
  have hread := text_behind_request hannounced hlength hdeclarable htext hfirst (-22)
  have hwhole : ¬ header.has MessageFlag.capped := by decide
  rw [if_neg hwhole] at hread
  obtain ⟨ack, hvalue, hcode, hrequest, hfound, -⟩ := hread
  exact ⟨ack, hvalue, hcode, hrequest, hfound (by decide)⟩

/-- The same text behind a request of seventeen bytes, which the kernel pads, is lost. -/
theorem text_lost_behind_odd_request :
    (ofError ⟨48, MessageType.error, MessageFlag.ackAttributes, 1, 2⟩
      (ErrorReply.payload (-22) (Header.encode ⟨17, 18, 769, 7, 0⟩ ++ [7])
        [.ofText textType "no"])).value = some ⟨-22, none, none, some ⟨17, 18, 769, 7, 0⟩⟩ := by
  decide +kernel

end Ack
end Netlink
