import Netlink.Attribute.Value
import Netlink.Draft.Tree
import Netlink.Message.Header

/-! # A message under construction

A draft holds what a message will say: the settled part of its header, and everything behind the
header in a buffer of bounded capacity. The length in the header is that of the bytes written so
far, so that a draft can be sent at any point. -/

namespace Netlink

/-- A message under construction. -/
structure Draft where
  type : UInt16
  flags : UInt16
  seq : UInt32
  pid : UInt32
  body : Draft.Buffer
  deriving DecidableEq, Repr

namespace Draft

def defaultCapacity : Nat := 32768

/-- A nest that has been opened: where its header stands in the body. -/
structure Mark where
  offset : Nat
  deriving DecidableEq, Repr

/-- A nest behind a struct: an outer attribute that carries the struct, and inside it, behind the
struct, an attribute of the same type for the children. -/
structure CompatMark where
  outer : Nat
  inner : Mark
  deriving DecidableEq, Repr

/-! ## Starting -/

/-- A draft with the type, flags, sequence number and port of a header, whose length does not
matter. -/
def ofHeader (h : Header) : Draft :=
  ⟨h.type, h.flags, h.seq, h.pid, ⟨headerSize, [], defaultCapacity⟩⟩

def new (type flags : UInt16) : Draft := ofHeader (Header.ofType type flags)

/-- A draft for at most `capacity` bytes, or for a bare header if that is more. -/
def withCapacity (type flags : UInt16) (capacity : Nat) : Draft :=
  ⟨type, flags, 0, 0, ⟨headerSize, [], max capacity headerSize⟩⟩

/-! ## Reading -/

/-- Bytes written so far, header included. -/
def size (d : Draft) : Nat := d.body.size

/-- There is nothing but a header. -/
def isEmpty (d : Draft) : Bool := d.body.bytes.isEmpty

def capacity (d : Draft) : Nat := d.body.capacity

def header (d : Draft) : Header := ⟨UInt32.ofNat d.size, d.type, d.flags, d.seq, d.pid⟩

def encode (d : Draft) : Bytes := d.header.encode ++ d.body.bytes

/-! ## Writing -/

/-- Appends bytes, for the fixed part of a message that comes before the attributes. -/
def appendRaw (d : Draft) (data : Bytes) : Except Error Unit × Draft :=
  let (outcome, body) := d.body.put data
  (outcome, { d with body })

def append (d : Draft) (a : Attribute) : Except Error Unit × Draft :=
  let (outcome, body) := d.body.putAttribute a
  (outcome, { d with body })

/-- Appends an attribute that was built on its own. -/
def appendTree (d : Draft) (t : Tree) : Except Error Unit × Draft := d.appendRaw t.encode

def openNest (d : Draft) (type : UInt16) : Except Error Mark × Draft :=
  let (outcome, d') := d.append (Attribute.mark type)
  (outcome.map fun () => ⟨d.body.front⟩, d')

/-! A request is given up with the first write that fails, and then what was written is dropped. -/

def addRaw (d : Draft) (data : Bytes) : Except Error Draft :=
  (achieved (d.appendRaw data)).map (·.2)

def add (d : Draft) (a : Attribute) : Except Error Draft := (achieved (d.append a)).map (·.2)

def addTree (d : Draft) (t : Tree) : Except Error Draft := (achieved (d.appendTree t)).map (·.2)

def addNest (d : Draft) (type : UInt16) : Except Error (Mark × Draft) := achieved (d.openNest type)

/-! ## Nests -/

/-- Closes a nest, which then reaches to the end of the message; the result is its length. A nest
that outgrew the length field is taken out. -/
def closeNest (d : Draft) (mark : Mark) : Except Error Nat × Draft :=
  let length := d.body.sizeFrom mark.offset
  match d.body.setLength mark.offset length with
  | .ok body => (.ok length, { d with body })
  | .error e => (.error e, { d with body := d.body.cut mark.offset })

/-- Opens a nest behind a struct. If the inner attribute does not fit behind the outer one, what was
written is taken out again. -/
def openCompat (d : Draft) (type : UInt16) (data : Bytes) : Except Error CompatMark × Draft :=
  match d.append ⟨type, data⟩ with
  | (.error e, d') => (.error e, d')
  | (.ok (), outer) =>
    match outer.openNest type with
    | (.ok inner, d') => (.ok ⟨d.body.front, inner⟩, d')
    | (.error e, d') => (.error e, { d' with body := d'.body.cut d.body.bytes.length })

/-- Closes a nest behind a struct, so that both attributes reach to the end of the message. An inner
attribute without children is left out. If the outer one outgrew its length field, both are taken
out. -/
def closeCompat (d : Draft) (mark : CompatMark) : Except Error Unit × Draft :=
  let innerLength := d.body.sizeFrom mark.inner.offset
  let dropped := innerLength = Attribute.headerSize
  let body := if dropped then d.body.cut mark.inner.offset else d.body
  let closed := do
    let body ← body.setLength mark.outer (body.sizeFrom mark.outer)
    if dropped then pure body else body.setLength mark.inner.offset innerLength
  match closed with
  | .ok body => (.ok (), { d with body })
  | .error e => (.error e, { d with body := body.cut mark.outer })

def setFlags (d : Draft) (flags : UInt16) : Draft := { d with flags }

def setSeq (d : Draft) (seq : UInt32) : Draft := { d with seq }

def setPid (d : Draft) (pid : UInt32) : Draft := { d with pid }

/-- Sets flags beside those that are set. -/
def addFlags (d : Draft) (flags : UInt16) : Draft := { d with flags := d.flags ||| flags }

/-! ## Requests, write by write -/

theorem addRaw_eq (d : Draft) (data : Bytes) :
    d.addRaw data = (d.body.add data).map fun body => { d with body } := by
  rw [addRaw, appendRaw, Buffer.put_eq]
  cases d.body.add data <;> rfl

theorem add_eq (d : Draft) (a : Attribute) :
    d.add a = (d.body.addAttribute a).map fun body => { d with body } := by
  rw [add, append, Buffer.putAttribute_eq]
  cases d.body.addAttribute a <;> rfl

theorem addNest_eq (d : Draft) (type : UInt16) :
    d.addNest type = (d.add (.mark type)).map fun d' => (⟨d.body.front⟩, d') := by
  rw [addNest, openNest, add]
  obtain ⟨outcome, d₁⟩ := d.append (.mark type)
  cases outcome <;> rfl

end Draft
end Netlink
