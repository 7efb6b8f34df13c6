/-! # Byte strings and the numbers inside them

A netlink field is a number of fixed width, least significant byte first unless the attribute
says otherwise. `toLE` and `ofLE` are the one pair every field goes through: `w` bytes come from a
number, and the number modulo `span w` comes back from them (`ofLE_toLE`). Records are padded to
the next multiple of four (`align4`), and a reader takes a record off the front of its input with
`split?`, which refuses when the bytes are not there. -/

namespace Netlink

/-- A run of bytes as it travels over a socket. -/
abbrev Bytes := List UInt8

namespace Wire

/-! ## Numbers of fixed width -/

/-- The `w` low-order bytes of `n`, least significant first. -/
def toLE : Nat → Nat → Bytes
  | 0, _ => []
  | w + 1, n => UInt8.ofNat n :: toLE w (n / 256)

/-- The number whose digits to base 256 are these bytes, least significant first. -/
def ofLE : Bytes → Nat
  | [] => 0
  | b :: bs => b.toNat + 256 * ofLE bs

/-- The `w` low-order bytes of `n`, most significant first. -/
def toBE (w n : Nat) : Bytes := (toLE w n).reverse

/-- The number whose digits to base 256 are these bytes, most significant first. -/
def ofBE (bs : Bytes) : Nat := ofLE bs.reverse

@[simp] theorem length_toLE (w n : Nat) : (toLE w n).length = w := by
  induction w generalizing n with
  | zero => rfl
  | succ w ih => simp [toLE, ih]

@[simp] theorem length_toBE (w n : Nat) : (toBE w n).length = w := by simp [toBE]

/-- How many numbers `w` bytes can tell apart. -/
def span : Nat → Nat
  | 0 => 1
  | w + 1 => 256 * span w

theorem ofLE_toLE (w n : Nat) : ofLE (toLE w n) = n % span w := by
  induction w generalizing n with
  | zero => simp [toLE, ofLE, span, Nat.mod_one]
  | succ w ih =>
    have byte : (UInt8.ofNat n).toNat = n % 256 := UInt8.toNat_ofNat'
    rw [toLE, ofLE, ih, byte, span, Nat.mod_mul]

theorem ofLE_toLE_of_lt {w n : Nat} (h : n < span w) : ofLE (toLE w n) = n := by
  rw [ofLE_toLE, Nat.mod_eq_of_lt h]

theorem ofLE_lt (bs : Bytes) : ofLE bs < span bs.length := by
  induction bs with
  | nil => simp [ofLE, span]
  | cons b bs ih =>
    have hb := b.toNat_lt
    rw [ofLE, List.length_cons, span]
    omega

theorem ofBE_toBE (w n : Nat) : ofBE (toBE w n) = n % span w := by
  simp [ofBE, toBE, ofLE_toLE]

/-! ## Machine words -/

/-- Two bytes, least significant first. -/
def le16 (v : UInt16) : Bytes := toLE 2 v.toNat

def le32 (v : UInt32) : Bytes := toLE 4 v.toNat

def le64 (v : UInt64) : Bytes := toLE 8 v.toNat

/-- Two bytes, most significant first. -/
def be16 (v : UInt16) : Bytes := toBE 2 v.toNat

def be32 (v : UInt32) : Bytes := toBE 4 v.toNat

def word16 (bs : Bytes) : UInt16 := UInt16.ofNat (ofLE (bs.take 2))

def word32 (bs : Bytes) : UInt32 := UInt32.ofNat (ofLE (bs.take 4))

def word64 (bs : Bytes) : UInt64 := UInt64.ofNat (ofLE (bs.take 8))

@[simp] theorem length_le16 (v : UInt16) : (le16 v).length = 2 := length_toLE ..

@[simp] theorem length_le32 (v : UInt32) : (le32 v).length = 4 := length_toLE ..

theorem drop_le16_append (v : UInt16) (bs : Bytes) (n : Nat) :
    (le16 v ++ bs).drop (n + 2) = bs.drop n := by
  rw [Nat.add_comm, ← List.drop_drop, List.drop_left' (length_le16 v)]

theorem drop_le32_append (v : UInt32) (bs : Bytes) (n : Nat) :
    (le32 v ++ bs).drop (n + 4) = bs.drop n := by
  rw [Nat.add_comm, ← List.drop_drop, List.drop_left' (length_le32 v)]

theorem word16_le16_append (v : UInt16) (bs : Bytes) : word16 (le16 v ++ bs) = v := by
  rw [word16, List.take_left' (length_le16 v), le16, ofLE_toLE_of_lt v.toNat_lt]
  simp

theorem word32_le32_append (v : UInt32) (bs : Bytes) : word32 (le32 v ++ bs) = v := by
  rw [word32, List.take_left' (length_le32 v), le32, ofLE_toLE_of_lt v.toNat_lt]
  simp

/-! ## Records on a four-byte grid -/

/-- The first multiple of four that is not below `n`. -/
def align4 (n : Nat) : Nat := (n + 3) / 4 * 4

theorem le_align4 (n : Nat) : n ≤ align4 n := by unfold align4; omega

theorem align4_lt (n : Nat) : align4 n < n + 4 := by unfold align4; omega

theorem align4_mod (n : Nat) : align4 n % 4 = 0 := by unfold align4; omega

theorem align4_of_mod {n : Nat} (h : n % 4 = 0) : align4 n = n := by unfold align4; omega

def zeros (n : Nat) : Bytes := List.replicate n 0

/-- The bytes followed by zeros up to the next multiple of four. -/
def padded (bs : Bytes) : Bytes := bs ++ zeros (align4 bs.length - bs.length)

@[simp] theorem length_padded (bs : Bytes) : (padded bs).length = align4 bs.length := by
  have := le_align4 bs.length
  simp [padded, zeros]
  omega

/-! ## Taking bytes off the front -/

/-- The first `n` bytes and what follows them, if there are that many. -/
def split? (n : Nat) (bs : Bytes) : Option (Bytes × Bytes) :=
  if (bs.take n).length = n then some (bs.take n, bs.drop n) else none

theorem split?_eq_some_iff {n : Nat} {bs front rest : Bytes} :
    split? n bs = some (front, rest) ↔ bs = front ++ rest ∧ front.length = n := by
  unfold split?
  constructor
  · intro h
    split at h
    · rename_i hn
      simp only [Option.some.injEq, Prod.mk.injEq] at h
      exact ⟨by rw [← h.1, ← h.2, List.take_append_drop], by rw [← h.1]; exact hn⟩
    · contradiction
  · rintro ⟨rfl, rfl⟩
    simp

theorem split?_eq_none_iff {n : Nat} {bs : Bytes} : split? n bs = none ↔ bs.length < n := by
  simp only [split?, List.length_take]
  split <;> simp <;> omega

theorem length_of_split? {n : Nat} {bs front rest : Bytes} (h : split? n bs = some (front, rest)) :
    bs.length = n + rest.length := by
  obtain ⟨rfl, rfl⟩ := split?_eq_some_iff.mp h
  simp

end Wire
end Netlink
