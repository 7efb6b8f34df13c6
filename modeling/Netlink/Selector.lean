import Netlink.Link.Basic

/-! # Selecting objects

A selector says which objects of a listing are wanted. A criterion that is not set selects
everything. An address is inside a network if both are of one kind and agree in as many leading bits
as the network fixes; a network that fixes more bits than an address has fixes all of them. -/

namespace Netlink

/-- An address of the internet protocol, by its octets. -/
inductive Address where
  | v4 (octets : Vector UInt8 4)
  | v6 (octets : Vector UInt8 16)
  deriving DecidableEq, Repr

namespace Address

def octets : Address → Bytes
  | .v4 octets => octets.toList
  | .v6 octets => octets.toList

def SameKind : Address → Address → Prop
  | .v4 _, .v4 _ | .v6 _, .v6 _ => True
  | _, _ => False

instance : DecidableRel SameKind
  | .v4 _, .v4 _ | .v6 _, .v6 _ => isTrue trivial
  | .v4 _, .v6 _ | .v6 _, .v4 _ => isFalse id

/-- The first `part` bits of an octet, in place. -/
def leading (part : Nat) (octet : UInt8) : UInt8 := octet &&& (0xFF <<< (8 - UInt8.ofNat part))

/-- The first `bits` bits of two strings of octets agree: all whole octets among them, and what
there is of a further one. Every octet that is looked at has to be there. -/
def agreeWithin? (bits : Nat) (a b : Bytes) : Option Bool := do
  let (front, _) ← Wire.split? (bits / 8) a
  let (front', _) ← Wire.split? (bits / 8) b
  if front ≠ front' then return false
  if bits % 8 = 0 then return true
  let octet ← a[bits / 8]?
  let octet' ← b[bits / 8]?
  return leading (bits % 8) octet = leading (bits % 8) octet'

/-- How many leading bits of an address are compared: no more than it has. -/
def compared (a : Address) (bits : UInt8) : Nat := min bits.toNat (a.octets.length * 8)

/-- Compares the first `bits` bits of two addresses. Those of different kinds are not compared. -/
def agreeOn? (a b : Address) (bits : UInt8) : Option Bool :=
  if SameKind a b then agreeWithin? (a.compared bits) a.octets b.octets else some false

/-- Two addresses of one kind agree in their first `bits` bits. -/
def agreeOn (a b : Address) (bits : UInt8) : Bool := (a.agreeOn? b bits).getD false

end Address

structure Selector where
  index : Option UInt32 := none
  family : Option UInt8 := none
  /-- A network: an address, and how many of its bits are fixed. -/
  network : Option (Address × UInt8) := none
  table : Option UInt32 := none
  /-- States of which an object must have one, as a mask. -/
  states : Option UInt32 := none
  /-- Who installed an object. -/
  origin : Option UInt8 := none
  name : Option String := none
  /-- Only interfaces that are up. -/
  upOnly : Bool := false
  deriving DecidableEq, Repr

namespace Selector

def isEmpty (s : Selector) : Bool := s = {}

/-- A criterion that is not set accepts everything. -/
def accepts {α : Type} (criterion : Option α) (test : α → Bool) : Bool := criterion.all test

def matchesIndex (s : Selector) (index : UInt32) : Bool := accepts s.index (· = index)

/-- Family zero stands for every family. -/
def matchesFamily (s : Selector) (family : UInt8) : Bool :=
  accepts s.family fun want => want = 0 || want = family

def matchesTable (s : Selector) (table : UInt32) : Bool := accepts s.table (· = table)

def matchesState (s : Selector) (state : UInt32) : Bool :=
  accepts s.states fun mask => state &&& mask != 0

def matchesOrigin (s : Selector) (origin : UInt8) : Bool := accepts s.origin (· = origin)

def matchesName (s : Selector) (name : String) : Bool := accepts s.name (· = name)

def matchesAddress (s : Selector) (address : Address) : Bool :=
  accepts s.network fun (net, bits) => net.agreeOn address bits

/-- An interface without a name has the empty one. -/
def matchesLink (s : Selector) (l : Link) : Bool :=
  s.matchesIndex l.index && s.matchesName (l.nameOr "") && (!s.upOnly || l.isUp)

end Selector
end Netlink
