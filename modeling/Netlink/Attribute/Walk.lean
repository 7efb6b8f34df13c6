import Netlink.Attribute.Value
import Netlink.Report.Logged

/-! # Walking a list of attributes

A list of attributes is a run of records. The walk takes one record after another off the front and
stops where the next bytes form none: fewer than four are left, or the length they declare is below
four or above what is left. What it stops at is the walk's `rest`; a list that is whole leaves
nothing. The padding of the last record may be missing. -/

namespace Netlink.Attribute

/-- The first record of a list, and the bytes after its padding. -/
def next? (bs : Bytes) : Option (Attribute × Bytes) :=
  match Wire.split? headerSize bs with
  | none => none
  | some (front, body) =>
    let header := AttributeHeader.ofBytes front
    let length := header.length.toNat
    if length < headerSize then none
    else match Wire.split? (length - headerSize) body with
      | none => none
      | some (payload, rest) =>
        some (⟨header.type, payload⟩, rest.drop (Wire.align4 length - length))

theorem length_of_next? {bs rest : Bytes} {a : Attribute} (h : next? bs = some (a, rest)) :
    rest.length < bs.length := by
  unfold next? at h
  split at h
  · contradiction
  · rename_i front body hfront
    have hl := Wire.length_of_split? hfront
    dsimp only at h
    split at h
    · contradiction
    · split at h
      · contradiction
      · rename_i payload tail hbody
        have hb := Wire.length_of_split? hbody
        simp only [Option.some.injEq, Prod.mk.injEq] at h
        rw [← h.2, List.length_drop]
        simp only [headerSize] at hl
        omega

/-- The records of a list, and the bytes that form none. -/
structure Walk where
  attributes : List Attribute
  rest : Bytes
  deriving DecidableEq, Repr

/-- Takes records off the front for as long as there is one. -/
def walk (bs : Bytes) : Walk :=
  match _h : next? bs with
  | none => ⟨[], bs⟩
  | some (a, rest) =>
    let tail := walk rest
    ⟨a :: tail.attributes, tail.rest⟩
termination_by bs.length
decreasing_by exact length_of_next? _h

theorem walk_of_next?_none {bs : Bytes} (h : next? bs = none) : walk bs = ⟨[], bs⟩ := by
  rw [walk]
  split
  · rfl
  · simp_all

theorem walk_of_next?_some {bs rest : Bytes} {a : Attribute} (h : next? bs = some (a, rest)) :
    walk bs = ⟨a :: (walk rest).attributes, (walk rest).rest⟩ := by
  rw [walk]
  split
  · simp_all
  · rename_i a' rest' h'
    simp_all

def children (a : Attribute) : Walk := walk a.payload

def Walk.deficit (w : Walk) : Nat := w.rest.length

/-- No header is left. -/
def Walk.atEnd (w : Walk) : Bool := w.rest.length < headerSize

/-- The length declared by a record that does not fit what is left. -/
def declaredLength (rest : Bytes) : Option UInt16 :=
  (Wire.split? headerSize rest).map fun (front, _) => (AttributeHeader.ofBytes front).length

def deficitReport (rest : Bytes) : List Event :=
  if rest.isEmpty then [] else [.trailingBytes rest.length (declaredLength rest)]

/-! ## Searching a list -/

/-- The first attribute of exactly this type. Trailing bytes are reported only when there is none,
for only then has the whole list been looked at. -/
def findFirst (type : UInt16) (bs : Bytes) : Logged (Option Attribute) :=
  let w := walk bs
  match w.attributes.find? (·.type = type) with
  | some a => ⟨some a, []⟩
  | none => ⟨none, deficitReport w.rest⟩

/-- The first attributes of a list whose type is at most `bound`, `limit` of them at most, and the
bytes behind the last record that was looked at. -/
def takeBounded (bound limit : Nat) (bs : Bytes) : List Attribute × Bytes :=
  match limit with
  | 0 => ([], bs)
  | fewer + 1 =>
    match _h : next? bs with
    | none => ([], bs)
    | some (a, rest) =>
      if a.type.toNat ≤ bound then
        let tail := takeBounded bound fewer rest
        (a :: tail.1, tail.2)
      else takeBounded bound (fewer + 1) rest
termination_by bs.length
decreasing_by all_goals exact length_of_next? _h

/-- The first `max` attributes whose type is at most `max`. What is behind the last record that was
looked at is reported. -/
def firstByIndex (max : Nat) (bs : Bytes) : Logged (List Attribute) :=
  let (taken, rest) := takeBounded max max bs
  ⟨taken, deficitReport rest⟩

end Netlink.Attribute
