import Netlink.Proofs.Attribute.Division
import Netlink.Proofs.Attribute.Index
import Netlink.Proofs.Link.Reading
import Netlink.Proofs.Wire.Text

/-! # What an interface is read from

Of the attributes of a message about an interface, seven types are known, and of each of these only
the first attribute counts. So the list may be put together differently without the reading noticing,
for as long as the first of each known type stays the first; and what is read, or the failure that is
reported, comes from these attributes and the fixed part alone. -/

namespace Netlink

namespace Attribute

/-- The first attribute of a type. -/
def first? (as : List Attribute) (type : UInt16) : Option Attribute := as.find? (·.type = type)

/-- One list is made from another by changes that leave the first attribute of each known type the
first: attributes of different types move past each other, attributes that are of none of the known
types come in, flag bits aside, and further attributes come in behind one of their type. -/
inductive Recast (known : List UInt16) : List Attribute → List Attribute → Prop
  | refl (as : List Attribute) : Recast known as as
  | reordered {as bs cs : List Attribute} (before : Recast known as bs)
      (same : ∀ type, cs.filter (·.type = type) = bs.filter (·.type = type)) : Recast known as cs
  | foreign {as front back : List Attribute} (before : Recast known as (front ++ back))
      (new : List Attribute) (declarable : ∀ a ∈ new, a.Declarable)
      (unknown : ∀ a ∈ new, a.kind ∉ known) : Recast known as (front ++ new ++ back)
  | further {as front back : List Attribute} (before : Recast known as (front ++ back))
      (new : List Attribute) (declarable : ∀ a ∈ new, a.Declarable)
      (behind : ∀ a ∈ new, ∃ b ∈ front, b.type = a.type) : Recast known as (front ++ new ++ back)

theorem first?_append (as bs : List Attribute) (type : UInt16) :
    first? (as ++ bs) type = (first? as type).or (first? bs type) :=
  List.find?_append

theorem first?_eq_head?_filter (as : List Attribute) (type : UInt16) :
    first? as type = (as.filter (·.type = type)).head? :=
  (List.head?_filter ..).symm

/-- What comes in between is not found if nothing of the type comes in, or if the type has been
found before. -/
theorem first?_insert {front new back : List Attribute} {type : UInt16}
    (h : ∀ a ∈ new, a.type = type → ∃ b ∈ front, b.type = type) :
    first? (front ++ new ++ back) type = first? (front ++ back) type := by
  simp only [first?_append]
  cases hfront : first? front type with
  | some a => rfl
  | none =>
    have habsent : ∀ b ∈ front, b.type ≠ type := by
      simpa [first?] using hfront
    have hnew : first? new type = none := by
      rw [first?, List.find?_eq_none]
      intro a ha hsame
      obtain ⟨b, hb, htype⟩ := h a ha (of_decide_eq_true hsame)
      exact habsent b hb htype
    rw [hnew, Option.none_or]

namespace Recast

variable {known : List UInt16} {as bs : List Attribute}

theorem first?_eq (h : Recast known as bs) (hbare : ∀ type ∈ known, bareType type = type)
    {type : UInt16} (hknown : type ∈ known) : first? bs type = first? as type := by
  induction h with
  | refl => rfl
  | reordered before same ih => rw [first?_eq_head?_filter, same, ← first?_eq_head?_filter, ih]
  | foreign before new declarable unknown ih =>
    refine (first?_insert fun a ha hsame => absurd hknown ?_).trans ih
    have hkind : a.kind = type := by rw [kind, hsame, hbare type hknown]
    exact hkind ▸ unknown a ha
  | further before new declarable behind ih =>
    refine (first?_insert fun a ha hsame => ?_).trans ih
    exact hsame ▸ behind a ha

theorem declarable (h : Recast known as bs) (has : ∀ a ∈ as, a.Declarable) :
    ∀ b ∈ bs, b.Declarable := by
  have insert {front new back : List Attribute} (hold : ∀ a ∈ front ++ back, a.Declarable)
      (hnew : ∀ a ∈ new, a.Declarable) : ∀ a ∈ front ++ new ++ back, a.Declarable := by
    obtain ⟨hfront, hback⟩ := List.forall_mem_append.mp hold
    exact List.forall_mem_append.mpr ⟨List.forall_mem_append.mpr ⟨hfront, hnew⟩, hback⟩
  induction h with
  | refl => exact has
  | @reordered bs cs before same ih =>
    intro c hc
    have hfiltered : c ∈ cs.filter (·.type = c.type) := by simp [hc]
    rw [same] at hfiltered
    exact ih c (List.mem_filter.mp hfiltered).1
  | foreign before new declarable unknown ih => exact insert ih declarable
  | further before new declarable behind ih => exact insert ih declarable

end Recast

/-- What a field holds of the first attribute of its type: nothing where there is none, and what the
attribute reads as where there is one. -/
inductive Held {α : Type} (read : Attribute → Except Error α) : Option Attribute → Option α → Prop
  | absent : Held read none none
  | present {a : Attribute} {v : α} (reads : read a = .ok v) : Held read (some a) (some v)

/-- The attribute of a field as it is read, where there is one. -/
def held {α : Type} (read : Attribute → Except Error α) (found : Option Attribute) :
    Except Error (Option α) :=
  match found with
  | none => .ok none
  | some a => (read a).map some

theorem held_eq_ok {α : Type} {read : Attribute → Except Error α} {found : Option Attribute}
    {v : Option α} : held read found = .ok v ↔ Held read found v := by
  constructor
  · intro h
    cases found with
    | none =>
      cases h
      exact .absent
    | some a =>
      cases hread : read a with
      | error e => simp [held, hread, Except.map] at h
      | ok w =>
        simp only [held, hread, Except.map, Except.ok.injEq] at h
        subst h
        exact .present hread
  · intro h
    cases h with
    | absent => rfl
    | present reads => simp [held, reads, Except.map]

end Attribute

namespace Link

open Attribute (Held held first? Recast walk encodeAll)

/-- The types of attributes that are known. -/
def knownTypes : List UInt16 :=
  [nameType, mtuType, queueLengthType, operStateType, masterType, lowerType, infoType]

/-- The first attribute that holds a kind, inside the first nest of its type. -/
def kindAmong (first : UInt16 → Option Attribute) : Option Attribute :=
  (first infoType).bind fun info => first? (walk info.payload).attributes kindType

/-- The interface of a fixed part and the first attribute of each type. -/
def assemble (info : InterfaceInfo) (first : UInt16 → Option Attribute) : Except Error Link := do
  let kind ← held Attribute.text (kindAmong first)
  let name ← held Attribute.text (first nameType)
  let mtu ← held Attribute.u32 (first mtuType)
  let queueLength ← held Attribute.u32 (first queueLengthType)
  let state ← held Attribute.u8 (first operStateType)
  let master ← held Attribute.u32 (first masterType)
  let lower ← held Attribute.u32 (first lowerType)
  return {
    index := info.index.toUInt32
    flags := info.flags
    deviceType := info.deviceType
    name, mtu, queueLength
    operState := state.map OperState.ofNumber
    master, lower, kind }

/-- Every field of the interface comes from the fixed part or from the first attribute of its
type. -/
structure Describes (info : InterfaceInfo) (as : List Attribute) (l : Link) : Prop where
  index : l.index = info.index.toUInt32
  flags : l.flags = info.flags
  deviceType : l.deviceType = info.deviceType
  name : Held Attribute.text (first? as nameType) l.name
  mtu : Held Attribute.u32 (first? as mtuType) l.mtu
  queueLength : Held Attribute.u32 (first? as queueLengthType) l.queueLength
  operState : ∃ number, Held Attribute.u8 (first? as operStateType) number ∧
    l.operState = number.map OperState.ofNumber
  master : Held Attribute.u32 (first? as masterType) l.master
  lower : Held Attribute.u32 (first? as lowerType) l.lower
  kind : Held Attribute.text (kindAmong (first? as)) l.kind

/-! ## The reading, from the first attributes -/

theorem field_read {α : Type} (bs : Bytes) {max type : UInt16} (htype : type ≤ max)
    (read : Attribute → Except Error α) :
    field (Attribute.Table.read max bs).value type read =
      held read (first? (walk bs).attributes type) := by
  have hslot : (Attribute.Table.read max bs).value.get? type = first? (walk bs).attributes type :=
    Attribute.Table.get?_fileAll_zero htype _
  rw [field, hslot]
  rfl

theorem result_readKind (bs : Bytes) :
    (readKind (Attribute.Table.read maxType bs).value).result =
      held Attribute.text (kindAmong (first? (walk bs).attributes)) := by
  have hslot : (Attribute.Table.read maxType bs).value.get? infoType =
      first? (walk bs).attributes infoType :=
    Attribute.Table.get?_fileAll_zero (by decide) _
  rw [readKind, hslot, kindAmong]
  cases first? (walk bs).attributes infoType with
  | none => rfl
  | some info => exact field_read info.payload (by decide) Attribute.text

theorem result_read {info : Bytes} (hinfo : info.length = InterfaceInfo.size) (bs : Bytes) :
    (read (info ++ bs)).result =
      assemble (InterfaceInfo.ofBytes info) (first? (walk bs).attributes) := by
  have hdecode : InterfaceInfo.decode (info ++ bs) = .ok (InterfaceInfo.ofBytes info) := by
    rw [InterfaceInfo.decode, Wire.split?_append hinfo]
  have hdrop : (info ++ bs).drop InterfaceInfo.size = bs := List.drop_left' hinfo
  have hfield {α : Type} {type : UInt16} (htype : type ≤ maxType)
      (read : Attribute → Except Error α) :
      (Decoded.ofExcept (field (Attribute.Table.read maxType bs).value type read)).result =
        held read (first? (walk bs).attributes type) := field_read bs htype read
  have htable : (liftM (Attribute.Table.read maxType bs) : Decoded Attribute.Table).result =
      .ok (Attribute.Table.read maxType bs).value := by rfl
  rw [read, hdecode, hdrop, Decoded.result_bind]
  change Decoded.result (liftM (Attribute.Table.read maxType bs) >>= _) = _
  rw [Decoded.result_bind, htable]
  change Decoded.result (readKind (Attribute.Table.read maxType bs).value >>= _) = _
  simp only [Decoded.result_bind, result_readKind, hfield (by decide : nameType ≤ maxType),
    hfield (by decide : mtuType ≤ maxType), hfield (by decide : queueLengthType ≤ maxType),
    hfield (by decide : operStateType ≤ maxType), hfield (by decide : masterType ≤ maxType),
    hfield (by decide : lowerType ≤ maxType)]
  rfl

theorem bareType_of_known {type : UInt16} (h : type ∈ knownTypes) :
    Attribute.bareType type = type := by
  have hall : knownTypes.all (fun type => Attribute.bareType type == type) = true := by decide
  exact eq_of_beq (List.all_eq_true.mp hall type h)

/-- Lists with the same first attributes of the known types are read alike. -/
theorem assemble_congr (info : InterfaceInfo) {first other : UInt16 → Option Attribute}
    (h : ∀ type ∈ knownTypes, first type = other type) :
    assemble info first = assemble info other := by
  have hkind : kindAmong first = kindAmong other := by
    rw [kindAmong, kindAmong, h infoType (by decide)]
  rw [assemble, assemble, hkind, h nameType (by decide), h mtuType (by decide),
    h queueLengthType (by decide), h operStateType (by decide), h masterType (by decide),
    h lowerType (by decide)]

/-- What is assembled is described by the attributes that it was assembled from. -/
theorem assemble_eq_ok {info : InterfaceInfo} {as : List Attribute} {l : Link} :
    assemble info (first? as) = .ok l ↔ Describes info as l := by
  simp only [assemble, bind_eq_ok, Attribute.held_eq_ok]
  constructor
  · rintro ⟨kind, hkind, name, hname, mtu, hmtu, length, hlength, state, hstate, master, hmaster,
      lower, hlower, ⟨⟩⟩
    exact ⟨rfl, rfl, rfl, hname, hmtu, hlength, ⟨state, hstate, rfl⟩, hmaster, hlower, hkind⟩
  · rintro ⟨hindex, hflags, hdevice, hname, hmtu, hlength, ⟨state, hstate, hoper⟩, hmaster, hlower,
      hkind⟩
    refine ⟨_, hkind, _, hname, _, hmtu, _, hlength, _, hstate, _, hmaster, _, hlower, ?_⟩
    rw [← hindex, ← hflags, ← hdevice, ← hoper]
    rfl

/-- **A link is read from the first attribute of each known type.** Let sixteen bytes and a list of
padded records make up a payload. What its reading comes to, the link or the failure, stays the same
however the list is recast: whether attributes of different types change places, attributes of none of
the known types come in anywhere, or further attributes of a type come in behind the first; and
whatever bytes stand behind the list, as long as no record begins them. The reading succeeds exactly
with a link whose fields are what the first attributes of their types read as, the kind being that of
the first kind inside the first nest of its type; a field is empty exactly where there is none. -/
theorem read_by_firsts {info : Bytes} (hinfo : info.length = InterfaceInfo.size)
    {as : List Attribute} (has : ∀ a ∈ as, a.Declarable) :
    (∀ bs trailing, Recast knownTypes as bs → Attribute.Stuck trailing →
      (read (info ++ encodeAll bs ++ trailing)).result = (read (info ++ encodeAll as)).result) ∧
    ∀ link, (read (info ++ encodeAll as)).result = .ok link ↔
      Describes (InterfaceInfo.ofBytes info) as link := by
  have hread {bs : List Attribute} (hbs : ∀ b ∈ bs, b.Declarable) (trailing : Bytes)
      (hstuck : Attribute.Stuck trailing) :
      (read (info ++ (encodeAll bs ++ trailing))).result =
        assemble (InterfaceInfo.ofBytes info) (first? bs) := by
    rw [result_read hinfo,
      Attribute.walk_encodeAll_append hbs (Attribute.next?_eq_none_iff.mpr hstuck)]
  have hplain := hread has [] (.inl (by decide))
  rw [List.append_nil] at hplain
  refine ⟨fun bs trailing hrecast hstuck => ?_, fun link => ?_⟩
  · rw [List.append_assoc, hread (hrecast.declarable has) trailing hstuck, hplain]
    exact assemble_congr _ fun type hknown =>
      hrecast.first?_eq (fun _ => bareType_of_known) hknown
  · rw [hplain]
    exact assemble_eq_ok

/-- A longest packet and a name have changed places, an attribute of an unknown type has come in
between them, and a second name, a second state and two stray bytes behind. -/
theorem read_by_firsts_sample :
    let info := InterfaceInfo.encode { index := 2, flags := DeviceFlag.up }
    let name := Attribute.ofText nameType "eth7"
    let mtu := Attribute.ofU32 mtuType 1400
    let state := Attribute.ofU8 operStateType 6
    let as := [name, mtu, state]
    let bs := [mtu, Attribute.ofU8 51 6, name, state, Attribute.ofText nameType "lo",
      Attribute.ofU8 operStateType 2]
    info.length = InterfaceInfo.size ∧ (∀ a ∈ as, a.Declarable) ∧ Recast knownTypes as bs ∧
      Attribute.Stuck [9, 9] ∧
      (read (info ++ encodeAll bs ++ [9, 9])).result =
        .ok ⟨2, DeviceFlag.up, 0, some "eth7", some 1400, none, some .up, none, none, none⟩ := by
  intro info name mtu state as bs
  have hinfo : info.length = InterfaceInfo.size := by decide
  have has : ∀ a ∈ as, a.Declarable :=
    List.forall_mem_cons.mpr ⟨Attribute.declarable_of_length (by decide),
      List.forall_mem_cons.mpr ⟨Attribute.declarable_of_length (by decide),
        List.forall_mem_singleton.mpr (Attribute.declarable_of_length (by decide))⟩⟩
  have hstuck : Attribute.Stuck [9, 9] := .inl (by decide)
  have hmoved : Recast knownTypes as ([mtu] ++ [name, state]) := by
    refine .reordered (.refl as) fun type => ?_
    have hname : name.type = nameType := rfl
    have hmtu : mtu.type = mtuType := rfl
    by_cases htype : mtuType = type
    · subst htype
      rfl
    · simp [as, List.filter_cons, hname, hmtu, htype]
  have hforeign : Recast knownTypes as ([mtu] ++ [Attribute.ofU8 51 6] ++ [name, state]) := by
    refine hmoved.foreign _ ?_ ?_
    · exact List.forall_mem_singleton.mpr (Attribute.declarable_of_length (by decide))
    · exact List.forall_mem_singleton.mpr (by decide)
  have hrecast : Recast knownTypes as bs := by
    refine @Recast.further _ _ (bs.take 4) [] hforeign (bs.drop 4) ?_ ?_
    · exact List.forall_mem_cons.mpr ⟨Attribute.declarable_of_length (by decide),
        List.forall_mem_singleton.mpr (Attribute.declarable_of_length (by decide))⟩
    · exact List.forall_mem_cons.mpr ⟨⟨name, by simp [bs], rfl⟩,
        List.forall_mem_singleton.mpr ⟨state, by simp [bs], rfl⟩⟩
  have hlink : Describes (InterfaceInfo.ofBytes info) as
      ⟨2, DeviceFlag.up, 0, some "eth7", some 1400, none, some .up, none, none, none⟩ := {
    index := rfl
    flags := rfl
    deviceType := rfl
    name := .present (Attribute.text_ofText (by decide) nameType)
    mtu := .present (Attribute.u32_ofU32 mtuType 1400)
    queueLength := .absent
    operState := ⟨some 6, .present rfl, rfl⟩
    master := .absent
    lower := .absent
    kind := .absent }
  obtain ⟨hsame, hdescribed⟩ := read_by_firsts hinfo has
  exact ⟨hinfo, has, hrecast, hstuck,
    (hsame bs [9, 9] hrecast hstuck).trans ((hdescribed _).mpr hlink)⟩

end Link
end Netlink
