import Netlink.Attribute.Value

/-! # Texts come back

The scan takes the bytes of a character in one stretch, whatever follows them: the first byte promises
how many are to come and within which bounds the second lies, and the others carry six bits each. So
the bytes of any text spell that text. A text without a zero character has no zero byte, and ends at
the zero byte behind it. -/

namespace Netlink

namespace Wire.Utf8

variable {index : Nat} {chars : List Char} {rest : Bytes}

/-! ## One byte -/

/-- The first byte of a character of two bytes carries its upper five bits. -/
theorem lead_two : ∀ n < 32, 2 ≤ n →
    lead (UInt8.ofNat (n + 192)) = some ⟨1, 1, 0x80, 0xBF, n⟩ := by decide

/-- The first byte of a character of three bytes carries its upper four bits. The second byte keeps out
the overlong forms and the surrogates. -/
theorem lead_three : ∀ n < 16, lead (UInt8.ofNat (n + 224)) =
    some ⟨1, 2, if n = 0 then 0xA0 else 0x80, if n = 13 then 0x9F else 0xBF, n⟩ := by decide

/-- The first byte of a character of four bytes carries its upper three bits. The second byte keeps out
the overlong forms and what is past the last code point. -/
theorem lead_four : ∀ n < 5, lead (UInt8.ofNat (n + 240)) =
    some ⟨1, 3, if n = 0 then 0x90 else 0x80, if n = 4 then 0x8F else 0xBF, n⟩ := by decide

/-- The bound as the number that it is, for arithmetic. -/
theorem toNat_ofNat_of_lt {n : Nat} (h : n < 256) : (UInt8.ofNat n).toNat = n :=
  UInt8.toNat_ofNat_of_lt' h

theorem scan_lead {b : UInt8} {p : Partial} (hbig : 128 ≤ b.toNat) (hlead : lead b = some p) :
    scan index chars none (b :: rest) = scan index chars (some p) rest := by
  have hnot : ¬ b < 0x80 := by
    rw [UInt8.lt_iff_toNat_lt]
    exact Nat.not_lt.mpr hbig
  rw [scan, if_neg hnot, hlead]

/-- A byte within its bounds adds its six bits, and completes the character if it is the last. -/
theorem scan_inside {seen missing bits n : Nat} {low high : UInt8} (hbits : n < 64)
    (hlow : low.toNat ≤ n + 128) (hhigh : n + 128 ≤ high.toNat) :
    scan index chars (some ⟨seen, missing, low, high, bits⟩) (UInt8.ofNat (n + 128) :: rest) =
      if missing = 1 then scan (index + seen + 1) (Char.ofNat (bits * 64 + n) :: chars) none rest
      else scan index chars (some ⟨seen + 1, missing - 1, 0x80, 0xBF, bits * 64 + n⟩) rest := by
  have hbyte : (UInt8.ofNat (n + 128)).toNat = n + 128 := toNat_ofNat_of_lt (by omega)
  have hinside : low ≤ UInt8.ofNat (n + 128) ∧ UInt8.ofNat (n + 128) ≤ high := by
    rw [UInt8.le_iff_toNat_le, UInt8.le_iff_toNat_le, hbyte]
    exact ⟨hlow, hhigh⟩
  have hmod : (n + 128) % 64 = n := by omega
  rw [scan, if_pos hinside, hbyte, hmod]

/-- A byte that is not the second of its character has all of its range. -/
theorem scan_inside_whole {seen missing bits n : Nat} (hbits : n < 64) :
    scan index chars (some ⟨seen, missing, 0x80, 0xBF, bits⟩) (UInt8.ofNat (n + 128) :: rest) =
      if missing = 1 then scan (index + seen + 1) (Char.ofNat (bits * 64 + n) :: chars) none rest
      else scan index chars (some ⟨seen + 1, missing - 1, 0x80, 0xBF, bits * 64 + n⟩) rest := by
  have hhigh : n + 128 ≤ (0xBF : UInt8).toNat := by
    show n + 128 ≤ 191
    omega
  exact scan_inside hbits (Nat.le_add_left ..) hhigh

/-! ## One character -/

theorem scan_one {v : Nat} (h : v < 128) :
    scan index chars none (UInt8.ofNat v :: rest) =
      scan (index + 1) (Char.ofNat v :: chars) none rest := by
  have hbyte : (UInt8.ofNat v).toNat = v := toNat_ofNat_of_lt (by omega)
  have hsmall : UInt8.ofNat v < 0x80 := by
    rw [UInt8.lt_iff_toNat_lt, hbyte]
    exact h
  rw [scan, if_pos hsmall, hbyte]

theorem scan_two {v : Nat} (hlow : 128 ≤ v) (hhigh : v < 2048) :
    scan index chars none
        (UInt8.ofNat (v / 64 % 32 + 192) :: UInt8.ofNat (v % 64 + 128) :: rest) =
      scan (index + 2) (Char.ofNat v :: chars) none rest := by
  have hfirst := lead_two (v / 64 % 32) (by omega) (by omega)
  have hbyte : (UInt8.ofNat (v / 64 % 32 + 192)).toNat = _ := toNat_ofNat_of_lt (by omega)
  have hwhole : v / 64 % 32 * 64 + v % 64 = v := by omega
  rw [scan_lead (by omega) hfirst, scan_inside_whole (by omega), if_pos rfl, hwhole]

/-- The bounds of the second byte hold, since the number is neither below what takes three bytes nor a
surrogate. -/
theorem scan_three {v : Nat} (hlow : 2048 ≤ v) (hhigh : v < 65536) (hvalid : v < 55296 ∨ 57343 < v) :
    scan index chars none
        (UInt8.ofNat (v / 4096 % 16 + 224) :: UInt8.ofNat (v / 64 % 64 + 128) ::
          UInt8.ofNat (v % 64 + 128) :: rest) =
      scan (index + 3) (Char.ofNat v :: chars) none rest := by
  have hfirst := lead_three (v / 4096 % 16) (by omega)
  have hbyte : (UInt8.ofNat (v / 4096 % 16 + 224)).toNat = _ := toNat_ofNat_of_lt (by omega)
  have hleast : (if v / 4096 % 16 = 0 then 0xA0 else 0x80 : UInt8).toNat ≤ v / 64 % 64 + 128 := by
    split
    · show 160 ≤ _
      omega
    · exact Nat.le_add_left ..
  have hmost : v / 64 % 64 + 128 ≤ (if v / 4096 % 16 = 13 then 0x9F else 0xBF : UInt8).toNat := by
    split
    · show _ ≤ 159
      omega
    · show _ ≤ 191
      omega
  have hwhole : (v / 4096 % 16 * 64 + v / 64 % 64) * 64 + v % 64 = v := by omega
  rw [scan_lead (by omega) hfirst, scan_inside (by omega) hleast hmost, if_neg (by decide),
    scan_inside_whole (by omega), if_pos rfl, hwhole]

/-- The bounds of the second byte hold, since the number is neither below what takes four bytes nor past
the last code point. -/
theorem scan_four {v : Nat} (hlow : 65536 ≤ v) (hhigh : v < 1114112) :
    scan index chars none
        (UInt8.ofNat (v / 262144 % 8 + 240) :: UInt8.ofNat (v / 4096 % 64 + 128) ::
          UInt8.ofNat (v / 64 % 64 + 128) :: UInt8.ofNat (v % 64 + 128) :: rest) =
      scan (index + 4) (Char.ofNat v :: chars) none rest := by
  have hfirst := lead_four (v / 262144 % 8) (by omega)
  have hbyte : (UInt8.ofNat (v / 262144 % 8 + 240)).toNat = _ := toNat_ofNat_of_lt (by omega)
  have hleast : (if v / 262144 % 8 = 0 then 0x90 else 0x80 : UInt8).toNat ≤
      v / 4096 % 64 + 128 := by
    split
    · show 144 ≤ _
      omega
    · exact Nat.le_add_left ..
  have hmost : v / 4096 % 64 + 128 ≤
      (if v / 262144 % 8 = 4 then 0x8F else 0xBF : UInt8).toNat := by
    split
    · show _ ≤ 143
      omega
    · show _ ≤ 191
      omega
  have hwhole : ((v / 262144 % 8 * 64 + v / 4096 % 64) * 64 + v / 64 % 64) * 64 + v % 64 = v := by
    omega
  rw [scan_lead (by omega) hfirst, scan_inside (by omega) hleast hmost, if_neg (by decide),
    scan_inside_whole (by omega), if_neg (by decide), scan_inside_whole (by omega), if_pos rfl,
    hwhole]

/-- The bytes of a character spell it, whatever follows them. -/
theorem scan_utf8EncodeChar_append (c : Char) :
    scan index chars none (String.utf8EncodeChar c ++ rest) =
      scan (index + (String.utf8EncodeChar c).length) (c :: chars) none rest := by
  have hvalid : c.val.toNat < 55296 ∨ 57343 < c.val.toNat ∧ c.val.toNat < 1114112 := c.valid
  have hchar : Char.ofNat c.val.toNat = c := Char.ofNat_toNat c
  rw [String.utf8EncodeChar]
  generalize c.val.toNat = v at hvalid hchar
  rw [← hchar]
  split
  · exact scan_one (by omega)
  split
  · exact scan_two (by omega) (by omega)
  split
  · exact scan_three (by omega) (by omega) (hvalid.imp_right And.left)
  · exact scan_four (by omega) (by omega)

/-- Only the zero character has a zero byte. -/
theorem eq_nul_of_zero_mem {c : Char} (h : 0 ∈ String.utf8EncodeChar c) : c = '\x00' := by
  have hnot {n : Nat} (hlow : 0 < n) (hhigh : n < 256) : 0 ≠ UInt8.ofNat n := by
    intro hzero
    have hvalue := congrArg UInt8.toNat hzero
    rw [toNat_ofNat_of_lt hhigh] at hvalue
    exact Nat.ne_of_lt hlow hvalue
  rw [String.utf8EncodeChar] at h
  generalize hv : c.val.toNat = v at h
  split at h
  · have hzero : (0 : UInt8) = UInt8.ofNat v := List.mem_singleton.mp h
    refine Char.ext (UInt32.toNat_inj.mp (hv.trans ?_))
    exact Nat.eq_zero_of_not_pos fun hpositive => hnot hpositive (by omega) hzero
  exfalso
  split at h
  · simp only [List.mem_cons, List.not_mem_nil, or_false] at h
    rcases h with h | h <;> exact hnot (by omega) (by omega) h
  split at h
  · simp only [List.mem_cons, List.not_mem_nil, or_false] at h
    rcases h with h | h | h <;> exact hnot (by omega) (by omega) h
  · simp only [List.mem_cons, List.not_mem_nil, or_false] at h
    rcases h with h | h | h | h <;> exact hnot (by omega) (by omega) h

/-! ## Texts -/

theorem scan_encode (cs : List Char) :
    scan index chars none (cs.flatMap String.utf8EncodeChar) = .ok (chars.reverse ++ cs) := by
  induction cs generalizing index chars with
  | nil => exact congrArg Except.ok (List.append_nil _).symm
  | cons c cs ih =>
    rw [List.flatMap_cons, scan_utf8EncodeChar_append, ih, List.reverse_cons, List.append_assoc]
    rfl

/-- The bytes of a text spell it. -/
theorem decode_encode (s : String) : decode (encode s) = .ok s := by
  have hchars : decodeChars (encode s) = .ok s.toList := scan_encode s.toList
  rw [decode, hchars]
  exact congrArg Except.ok (String.ofList_toList ..)

theorem zero_notMem_encode {s : String} (h : '\x00' ∉ s.toList) : 0 ∉ encode s := by
  intro hzero
  obtain ⟨c, hmem, hbyte⟩ := List.mem_flatMap.mp hzero
  exact h (eq_nul_of_zero_mem hbyte ▸ hmem)

/-- The bytes of a text in front of its first zero byte are those of the characters in front of its
first zero character. The zero byte that ends the text stops the search at the latest. -/
theorem untilNul_flatMap_append (cs : List Char) (bs : Bytes) :
    untilNul (cs.flatMap String.utf8EncodeChar ++ 0 :: bs) =
      (cs.takeWhile (· != '\x00')).flatMap String.utf8EncodeChar := by
  induction cs with
  | nil => rfl
  | cons c cs ih =>
    rw [List.flatMap_cons, List.append_assoc]
    by_cases hzero : c = '\x00'
    · subst hzero
      rfl
    · have hall : ∀ b ∈ String.utf8EncodeChar c, (b != 0) = true := fun b hb =>
        bne_iff_ne.mpr fun hb0 => hzero (eq_nul_of_zero_mem (hb0 ▸ hb))
      have hkept : (c != '\x00') = true := bne_iff_ne.mpr hzero
      rw [List.takeWhile_cons, if_pos hkept, List.flatMap_cons, ← ih, untilNul,
        List.takeWhile_append_of_pos hall]
      rfl

end Wire.Utf8

/-- The text up to its first zero character. -/
def textUntilNul (s : String) : String := String.ofList (s.toList.takeWhile (· != '\x00'))

theorem textUntilNul_of_notMem {s : String} (h : '\x00' ∉ s.toList) : textUntilNul s = s := by
  have hall : ∀ c ∈ s.toList, (c != '\x00') = true := fun c hc =>
    bne_iff_ne.mpr fun hzero => h (hzero ▸ hc)
  have hwhole : (s.toList ++ []).takeWhile (· != '\x00') = s.toList ++ [] :=
    List.takeWhile_append_of_pos hall
  rw [List.append_nil] at hwhole
  rw [textUntilNul, hwhole, String.ofList_toList]

/-- An attribute that was made from a text says as much of it as stands in front of the first zero
character. -/
theorem Attribute.text_ofText_untilNul (type : UInt16) (s : String) :
    (ofText type s).text = .ok (textUntilNul s) := by
  have hbytes : Wire.Utf8.untilNul (ofText type s).payload =
      Wire.Utf8.encode (textUntilNul s) := by
    rw [Wire.Utf8.encode, textUntilNul, String.toList_ofList]
    exact Wire.Utf8.untilNul_flatMap_append s.toList []
  rw [text, hbytes, Wire.Utf8.decode_encode]

/-- The text of an attribute that was made from it. -/
theorem Attribute.text_ofText {s : String} (h : '\x00' ∉ s.toList) (type : UInt16) :
    (ofText type s).text = .ok s := by
  rw [text_ofText_untilNul, textUntilNul_of_notMem h]

end Netlink
