import Mathlib.Algebra.Group.Nat.Defs
import Netlink.Selector

/-! # Networks as ranges of numbers

The octets of an address are the digits of a number, the most significant first. To compare the
leading bits of two addresses octet by octet is to compare what is left of their numbers when the
other bits are divided off; so a network is a range of numbers, and a network that fixes fewer bits is
a range around it. -/

namespace Netlink

namespace Wire

theorem span_eq (w : Nat) : span w = 2 ^ (8 * w) := by
  induction w with
  | zero => rfl
  | succ w ih => rw [span, ih, Nat.mul_succ, Nat.pow_add, Nat.mul_comm]

theorem ofLE_concat (bs : Bytes) (b : UInt8) :
    ofLE (bs ++ [b]) = ofLE bs + b.toNat * 2 ^ (8 * bs.length) := by
  induction bs with
  | nil => simp [ofLE]
  | cons c bs ih =>
    have hdigit : 2 ^ (8 * (bs.length + 1)) = 256 * 2 ^ (8 * bs.length) := by
      rw [← span_eq, span, span_eq]
    rw [List.cons_append, ofLE, ih, ofLE, List.length_cons, hdigit, Nat.mul_left_comm]
    omega

/-- The first byte is the most significant digit. -/
theorem ofBE_cons (b : UInt8) (bs : Bytes) :
    ofBE (b :: bs) = b.toNat * 2 ^ (8 * bs.length) + ofBE bs := by
  rw [ofBE, List.reverse_cons, ofLE_concat, List.length_reverse, Nat.add_comm, ofBE]

theorem ofBE_lt (bs : Bytes) : ofBE bs < 2 ^ (8 * bs.length) := by
  have hlt := ofLE_lt bs.reverse
  rwa [span_eq, List.length_reverse] at hlt

end Wire

namespace Address

/-! ## Octets that are there -/

/-- The same comparison of octets that may be missing. -/
def agree (bits : Nat) (a b : Bytes) : Bool :=
  let whole := bits / 8
  let part := bits % 8
  a.take whole = b.take whole &&
    (part = 0 || Option.map (leading part) a[whole]? = Option.map (leading part) b[whole]?)

/-- No octet is missing from the comparison of bits that are there. -/
theorem agreeWithin?_eq {a b : Bytes} {bits : Nat} (ha : bits ≤ 8 * a.length)
    (hb : bits ≤ 8 * b.length) : agreeWithin? bits a b = some (agree bits a b) := by
  have hsplit {bs : Bytes} (h : bits ≤ 8 * bs.length) :
      Wire.split? (bits / 8) bs = some (bs.take (bits / 8), bs.drop (bits / 8)) := by
    rw [Wire.split?, if_pos (List.length_take_of_le (by omega))]
  rw [agreeWithin?, hsplit ha, hsplit hb, agree]
  by_cases hfront : a.take (bits / 8) = b.take (bits / 8)
  · by_cases hpart : bits % 8 = 0
    · simp [hfront, hpart]
    · have hinside {bs : Bytes} (h : bits ≤ 8 * bs.length) : bits / 8 < bs.length := by omega
      simp [hfront, hpart, List.getElem?_eq_getElem (hinside ha),
        List.getElem?_eq_getElem (hinside hb)]
  · simp [hfront]

/-! ## Leading bits of an octet -/

/-- The mask of the first bits of an octet is so many ones above the other bits. -/
theorem toNat_mask : ∀ part < 8, 0 < part →
    ((0xFF : UInt8) <<< (8 - UInt8.ofNat part)).toNat = (2 ^ part - 1) * 2 ^ (8 - part) := by
  decide

/-- The first bits of an octet in place are what the other bits leave of it, put back in place. -/
theorem toNat_leading {part : Nat} (hpositive : 0 < part) (hpart : part < 8) (octet : UInt8) :
    (leading part octet).toNat = octet.toNat / 2 ^ (8 - part) * 2 ^ (8 - part) := by
  have hsmall : octet.toNat < 2 ^ 8 := octet.toNat_lt
  rw [leading, UInt8.toNat_and, toNat_mask part hpart hpositive]
  apply Nat.eq_of_testBit_eq
  intro i
  simp only [Nat.testBit_and, Nat.testBit_mul_two_pow, Nat.testBit_two_pow_sub_one,
    Nat.testBit_div_two_pow]
  by_cases hlow : 8 - part ≤ i
  · by_cases hhigh : i < 8
    · have hinside : i - (8 - part) < part := by omega
      simp [hlow, hinside]
    · have hnone : octet.toNat.testBit i = false :=
        Nat.testBit_lt_two_pow (Nat.lt_of_lt_of_le hsmall (Nat.pow_le_pow_right (by decide) (by omega)))
      simp [hlow, hnone]
  · simp [hlow]

theorem leading_eq_iff {part : Nat} (hpositive : 0 < part) (hpart : part < 8) (x y : UInt8) :
    leading part x = leading part y ↔ x.toNat / 2 ^ (8 - part) = y.toNat / 2 ^ (8 - part) := by
  rw [← UInt8.toNat_inj, toNat_leading hpositive hpart, toNat_leading hpositive hpart]
  exact Nat.mul_left_inj (Nat.ne_of_gt (Nat.two_pow_pos _))

/-! ## Leading bits of a number -/

/-- What is left of a number of two digits when no more than the lower one is divided off tells both
the upper digit and what is left of the lower one. -/
theorem div_eq_div_iff {x y u v high low : Nat} (hu : u < 2 ^ (high + low))
    (hv : v < 2 ^ (high + low)) :
    (x * 2 ^ (high + low) + u) / 2 ^ low = (y * 2 ^ (high + low) + v) / 2 ^ low ↔
      x = y ∧ u / 2 ^ low = v / 2 ^ low := by
  have hlow : 0 < 2 ^ low := Nat.two_pow_pos low
  have hdigits (x u : Nat) :
      (x * 2 ^ (high + low) + u) / 2 ^ low = x * 2 ^ high + u / 2 ^ low := by
    rw [Nat.pow_add, ← Nat.mul_assoc, Nat.mul_comm (x * 2 ^ high), Nat.mul_add_div hlow]
  have hrest {u : Nat} (hu : u < 2 ^ (high + low)) : u / 2 ^ low < 2 ^ high := by
    rw [Nat.div_lt_iff_lt_mul hlow, ← Nat.pow_add]
    exact hu
  rw [hdigits, hdigits]
  constructor
  · intro heq
    have hupper := congrArg (· / 2 ^ high) heq
    have hlower := congrArg (· % 2 ^ high) heq
    simp only [Nat.mul_comm _ (2 ^ high), Nat.mul_add_div (Nat.two_pow_pos high),
      Nat.div_eq_of_lt (hrest hu), Nat.div_eq_of_lt (hrest hv), Nat.add_zero] at hupper
    simp only [Nat.mul_comm _ (2 ^ high), Nat.mul_add_mod, Nat.mod_eq_of_lt (hrest hu),
      Nat.mod_eq_of_lt (hrest hv)] at hlower
    exact ⟨hupper, hlower⟩
  · rintro ⟨rfl, heq⟩
    rw [heq]

/-- To agree beyond the first octet is to have the same first octet and to agree behind it. -/
theorem agree_cons (bits : Nat) (x y : UInt8) (xs ys : Bytes) :
    agree (bits + 8) (x :: xs) (y :: ys) = (decide (x = y) && agree bits xs ys) := by
  have hwhole : (bits + 8) / 8 = bits / 8 + 1 := by omega
  have hpart : (bits + 8) % 8 = bits % 8 := by omega
  rw [agree, agree, hwhole, hpart, List.take_succ_cons, List.take_succ_cons,
    List.getElem?_cons_succ, List.getElem?_cons_succ, ← Bool.and_assoc]
  simp

/-- To agree inside the first octet is to agree in its first bits. -/
theorem agree_of_lt {bits : Nat} (h : bits < 8) (x y : UInt8) (xs ys : Bytes) :
    agree bits (x :: xs) (y :: ys) = true ↔
      x.toNat / 2 ^ (8 - bits) = y.toNat / 2 ^ (8 - bits) := by
  have hwhole : bits / 8 = 0 := by omega
  have hpart : bits % 8 = bits := by omega
  rw [agree, hwhole, hpart]
  by_cases hzero : bits = 0
  · have hx : x.toNat / 2 ^ 8 = 0 := Nat.div_eq_of_lt x.toNat_lt
    have hy : y.toNat / 2 ^ 8 = 0 := Nat.div_eq_of_lt y.toNat_lt
    subst hzero
    rw [Nat.sub_zero, hx, hy]
    simp
  · rw [← leading_eq_iff (by omega) h]
    simp [hzero]

/-- Octets agree in their first bits just if their numbers do. -/
theorem agree_iff {a b : Bytes} {bits : Nat} (hlength : a.length = b.length)
    (hbits : bits ≤ 8 * a.length) :
    agree bits a b = true ↔
      Wire.ofBE a / 2 ^ (8 * a.length - bits) = Wire.ofBE b / 2 ^ (8 * a.length - bits) := by
  induction a generalizing b bits with
  | nil =>
    obtain rfl : b = [] := List.eq_nil_of_length_eq_zero hlength.symm
    obtain rfl : bits = 0 := by simpa using hbits
    simp [agree]
  | cons x a ih =>
    obtain _ | ⟨y, b⟩ := b
    · cases hlength
    have hlength : a.length = b.length := by simpa using hlength
    have ha := Wire.ofBE_lt a
    have hb : Wire.ofBE b < 2 ^ (8 * a.length) := hlength ▸ Wire.ofBE_lt b
    rw [List.length_cons] at hbits ⊢
    rw [Wire.ofBE_cons, Wire.ofBE_cons, ← hlength]
    by_cases hfirst : bits < 8
    · have hshift : 8 * (a.length + 1) - bits = 8 * a.length + (8 - bits) := by omega
      have hnumber {x u : Nat} (hu : u < 2 ^ (8 * a.length)) :
          (x * 2 ^ (8 * a.length) + u) / 2 ^ (8 * a.length + (8 - bits)) =
            x / 2 ^ (8 - bits) := by
        rw [Nat.pow_add, ← Nat.div_div_eq_div_mul, Nat.mul_comm x,
          Nat.mul_add_div (Nat.two_pow_pos _), Nat.div_eq_of_lt hu, Nat.add_zero]
      rw [agree_of_lt hfirst, hshift, hnumber ha, hnumber hb]
    · obtain ⟨more, rfl⟩ : ∃ more, bits = more + 8 := ⟨bits - 8, by omega⟩
      have hmore : more ≤ 8 * a.length := by omega
      have hshift : 8 * (a.length + 1) - (more + 8) = 8 * a.length - more := by omega
      have hsplit : 8 * a.length = more + (8 * a.length - more) := by omega
      have hbehind := ih hlength hmore
      generalize 8 * a.length - more = low at hsplit hshift hbehind
      rw [hsplit] at ha hb ⊢
      have hdigits := div_eq_div_iff (x := x.toNat) (y := y.toNat) ha hb
      rw [agree_cons, hshift, hdigits, ← hbehind, UInt8.toNat_inj]
      simp

/-! ## Leading bits of an address -/

/-- Bits of an address. -/
def width : Address → Nat
  | v4 _ => 32
  | v6 _ => 128

/-- The number whose digits to base 256 are the octets, the most significant first. -/
def number (a : Address) : Nat := Wire.ofBE a.octets

/-- What is left of the number when all but its first `bits` bits are divided off. -/
def leadingNumber (a : Address) (bits : UInt8) : Nat :=
  a.number / 2 ^ (a.width - min bits.toNat a.width)

theorem length_octets (a : Address) : 8 * a.octets.length = a.width := by
  cases a <;> simp [octets, width]

theorem sameKind_iff {a b : Address} : SameKind a b ↔ a.width = b.width := by
  cases a <;> cases b <;> simp [SameKind, width]

theorem SameKind.length {a b : Address} (h : SameKind a b) : a.octets.length = b.octets.length := by
  have ha := a.length_octets
  have hb := b.length_octets
  have hwidth := sameKind_iff.mp h
  omega

/-- As many bits are compared as both addresses have. -/
theorem agreeWithin?_octets {a b : Address} (h : SameKind a b) (bits : UInt8) :
    agreeWithin? (a.compared bits) a.octets b.octets =
      some (agree (a.compared bits) a.octets b.octets) := by
  have hlength := h.length
  have hcompared : a.compared bits ≤ a.octets.length * 8 := Nat.min_le_right ..
  exact agreeWithin?_eq (by omega) (by omega)

/-- The comparison of two addresses looks at no octet that is missing. -/
theorem agreeOn?_eq (a b : Address) (bits : UInt8) :
    a.agreeOn? b bits = some (decide (SameKind a b) && agree (a.compared bits) a.octets b.octets) := by
  rw [agreeOn?]
  by_cases hkind : SameKind a b
  · rw [if_pos hkind, agreeWithin?_octets hkind, decide_eq_true hkind, Bool.true_and]
  · rw [if_neg hkind, decide_eq_false hkind, Bool.false_and]

theorem agreeOn_eq (a b : Address) (bits : UInt8) :
    a.agreeOn b bits = (decide (SameKind a b) && agree (a.compared bits) a.octets b.octets) := by
  rw [agreeOn, agreeOn?_eq, Option.getD_some]

/-- Two addresses agree in their first bits just if they are of one kind and the same is left of
their numbers. -/
theorem agreeOn_iff {a b : Address} {bits : UInt8} :
    a.agreeOn b bits = true ↔ SameKind a b ∧ a.leadingNumber bits = b.leadingNumber bits := by
  rw [agreeOn_eq, Bool.and_eq_true, decide_eq_true_iff]
  refine and_congr_right fun hkind => ?_
  have hbits : a.compared bits ≤ 8 * a.octets.length := by
    rw [Nat.mul_comm]
    exact Nat.min_le_right ..
  rw [agree_iff hkind.length hbits, compared, Nat.mul_comm _ 8, length_octets, leadingNumber,
    leadingNumber, sameKind_iff.mp hkind, number, number]

/-- Where more bits are left, so are fewer. -/
theorem leadingNumber_of_le {a b : Address} {fewer bits : UInt8} (hkind : SameKind a b)
    (hle : fewer ≤ bits) (h : a.leadingNumber bits = b.leadingNumber bits) :
    a.leadingNumber fewer = b.leadingNumber fewer := by
  have hle : fewer.toNat ≤ bits.toNat := UInt8.le_iff_toNat_le.mp hle
  have hrest (a : Address) : a.leadingNumber fewer =
      a.leadingNumber bits / 2 ^ (min bits.toNat a.width - min fewer.toNat a.width) := by
    rw [leadingNumber, leadingNumber, Nat.div_div_eq_div_mul, ← Nat.pow_add]
    congr 2
    omega
  rw [hrest a, hrest b, h, sameKind_iff.mp hkind]

end Address

/-- **A network is a range of numbers.** An address agrees with another in their first bits just if
both are of one kind and their numbers are the same when all other bits are divided off; more bits
than an address has are all of them. So to agree in so many bits is an equivalence of addresses, and
whoever agrees in some bits agrees in fewer. No octet is looked at that an address does not have. A
selector accepts an address if it names no network, or if the address is inside the network that it
names. -/
theorem Address.agreeOn_numeric :
    (∀ (a b : Address) (bits : UInt8), a.agreeOn b bits = true ↔
      SameKind a b ∧ a.number / 2 ^ (a.width - min bits.toNat a.width) =
        b.number / 2 ^ (b.width - min bits.toNat b.width)) ∧
      (∀ bits, Equivalence fun a b : Address => a.agreeOn b bits = true) ∧
      (∀ (a b : Address) (fewer bits : UInt8), fewer ≤ bits → a.agreeOn b bits = true →
        a.agreeOn b fewer = true) ∧
      (∀ (a b : Address) (bits : UInt8), a.agreeOn? b bits = some (a.agreeOn b bits)) ∧
      (∀ (a b : Address) (bits : UInt8), SameKind a b →
        agreeWithin? (min bits.toNat a.width) a.octets b.octets = some (a.agreeOn b bits)) ∧
      ∀ (s : Selector) (address : Address), s.matchesAddress address = true ↔
        ∀ net bits, s.network = some (net, bits) →
          SameKind net address ∧ net.leadingNumber bits = address.leadingNumber bits := by
  refine ⟨fun a b bits => agreeOn_iff, fun bits => ⟨fun a => ?_, fun h => ?_, fun h h' => ?_⟩, ?_,
    fun a b bits => ?_, ?_, ?_⟩
  · exact agreeOn_iff.mpr ⟨sameKind_iff.mpr rfl, rfl⟩
  · obtain ⟨hkind, hsame⟩ := agreeOn_iff.mp h
    exact agreeOn_iff.mpr ⟨sameKind_iff.mpr (sameKind_iff.mp hkind).symm, hsame.symm⟩
  · obtain ⟨hkind, hsame⟩ := agreeOn_iff.mp h
    obtain ⟨hkind', hsame'⟩ := agreeOn_iff.mp h'
    have hwidth := (sameKind_iff.mp hkind).trans (sameKind_iff.mp hkind')
    exact agreeOn_iff.mpr ⟨sameKind_iff.mpr hwidth, hsame.trans hsame'⟩
  · intro a b fewer bits hle h
    obtain ⟨hkind, hsame⟩ := agreeOn_iff.mp h
    exact agreeOn_iff.mpr ⟨hkind, leadingNumber_of_le hkind hle hsame⟩
  · rw [agreeOn_eq, agreeOn?_eq]
  · intro a b bits hkind
    have hwithin := agreeWithin?_octets hkind bits
    rwa [← Bool.true_and (agree ..), ← decide_eq_true hkind, ← agreeOn_eq, compared,
      Nat.mul_comm, length_octets] at hwithin
  · intro s address
    unfold Selector.matchesAddress Selector.accepts
    cases hnetwork : s.network with
    | none => simp
    | some network =>
      obtain ⟨net, bits⟩ := network
      rw [Option.all_some, agreeOn_iff]
      constructor
      · rintro hinside net' bits' ⟨⟩
        exact hinside
      · intro hall
        exact hall net bits rfl

/-- A network that fixes seven bits of the third octet, an address inside it and one that is next to it;
and two addresses with more fixed bits than they have, of which they share all but the last. -/
theorem Address.agreeOn_numeric_sample :
    let net := v4 #v[192, 168, 0, 0]
    let inside := v4 #v[192, 168, 1, 7]
    let beside := v4 #v[192, 168, 2, 7]
    let last := v6 #v[32, 1, 13, 184, 0, 0, 0, 0, 0, 0, 0, 0, 0, 0, 0, 1]
    let other := v6 #v[32, 1, 13, 184, 0, 0, 0, 0, 0, 0, 0, 0, 0, 0, 0, 0]
    net.agreeOn inside 23 = true ∧ net.agreeOn inside 20 = true ∧ net.agreeOn beside 23 = false ∧
      last.agreeOn other 127 = true ∧ last.agreeOn other 200 = false ∧
      net.agreeOn other 0 = false := by
  intro net inside beside last other
  obtain ⟨hnumeric, -, hfewer, -⟩ := agreeOn_numeric
  have hinside : net.agreeOn inside 23 = true := (hnumeric ..).mpr ⟨trivial, by decide +kernel⟩
  refine ⟨hinside, hfewer net inside 20 23 (by decide) hinside, ?_,
    (hnumeric ..).mpr ⟨trivial, by decide +kernel⟩, ?_, ?_⟩
  · refine Bool.eq_false_iff.mpr fun h => ?_
    exact absurd ((hnumeric ..).mp h).2 (by decide +kernel)
  · refine Bool.eq_false_iff.mpr fun h => ?_
    exact absurd ((hnumeric ..).mp h).2 (by decide +kernel)
  · exact Bool.eq_false_iff.mpr fun h => ((hnumeric ..).mp h).1

end Netlink
