import Netlink.Proofs.Attribute.Index
import Netlink.Proofs.Attribute.Marks
import Netlink.Proofs.Draft.Parts
import Netlink.Proofs.Generic.Reading
import Netlink.Proofs.Wire.Text

/-! # Families that are read back

A family is told of in attributes of six types, one of them an array of nests with a nest for each
multicast group. The reading looks each type up with the mark of nests cleared, so neither the order
of the attributes, nor the marks, nor attributes of other types come into it; and a nest of the array
is found by its place and not by its type. -/

namespace Netlink

open Attribute (plainType encodeAll)

namespace Attribute

/-- Where no two attributes have the same type, marks aside, each is found by its own. -/
theorem find?_plainType {as bs : List Attribute} (hperm : as.Perm bs)
    (hdistinct : (bs.map (plainType ·.type)).Nodup) {a : Attribute} (ha : a ∈ bs) {type : UInt16}
    (htype : plainType a.type = type) : as.find? (plainType ·.type = type) = some a := by
  subst htype
  have hmem : a ∈ as := hperm.mem_iff.mpr ha
  replace hdistinct : (as.map (plainType ·.type)).Nodup :=
    (hperm.map (plainType ·.type)).nodup_iff.mpr hdistinct
  clear hperm ha
  induction as with
  | nil => cases hmem
  | cons b as ih =>
    obtain ⟨hfirst, hrest⟩ := List.nodup_cons.mp hdistinct
    rcases List.mem_cons.mp hmem with rfl | hmem
    · simp
    · have hother : plainType b.type ≠ plainType a.type := by
        intro hsame
        exact hfirst (List.mem_map.mpr ⟨a, hmem, hsame.symm⟩)
      simp [hother, ih hmem hrest]

/-- The table of a list of records, marks aside, has nothing to report. -/
theorem readClearing_encodeAll {as : List Attribute} (has : ∀ a ∈ as, a.Declarable) (max : UInt16) :
    Table.readClearing nestedFlag max (encodeAll as) =
      pure ((Table.empty max).fileAll nestedFlag as) := by
  rw [Table.readClearing, walk_encodeAll has]
  rfl

theorem Table.get?_plainType {max type : UInt16} (htype : type ≤ max) (as : List Attribute) :
    ((empty max).fileAll nestedFlag as).get? type = as.find? (plainType ·.type = type) :=
  get?_fileAll_empty htype nestedFlag as

end Attribute

namespace Family

/-- The types of the attributes that hold a value each. -/
def valueTypes : List UInt16 := [idType, nameType, versionType, headerSizeType, maxAttributeType]

/-- The types of attributes that are known. -/
def knownTypes : List UInt16 := valueTypes ++ [groupsType]

/-- The attributes that hold a value each. -/
def valueAttributes (f : Family) : List Attribute :=
  [.ofU16 idType f.id, .ofText nameType f.name, .ofU32 versionType f.version.toUInt32,
    .ofU32 headerSizeType f.headerSize, .ofU32 maxAttributeType f.maxAttribute]

/-- A nest of any type for each group, with its name and its number in either order. -/
inductive Nested : List Attribute → List (String × UInt32) → Prop
  | nil : Nested [] []
  | cons {nests inner : List Attribute} {groups : List (String × UInt32)} {name : String}
      {id : UInt32} (type : UInt16)
      (either : inner.Perm [.ofText groupNameType name, .ofU32 groupIdType id])
      (behind : Nested nests groups) :
      Nested (⟨type, encodeAll inner⟩ :: nests) ((name, id) :: groups)

/-- The array of the groups, marked or not. Where there are no groups, it may be left out. -/
inductive ArrayOf : List (String × UInt32) → List Attribute → Prop
  | absent : ArrayOf [] []
  | present {nests : List Attribute} {groups : List (String × UInt32)} {type : UInt16}
      (plain : plainType type = groupsType) (nested : Nested nests groups) :
      ArrayOf groups [⟨type, encodeAll nests⟩]

/-- The attributes tell of a family: in some order, its values and its array, and among them
attributes of other types. -/
def ToldBy (f : Family) (as : List Attribute) : Prop :=
  ∃ array, ArrayOf f.groups array ∧
    (as.filter fun a => plainType a.type ∈ knownTypes).Perm (f.valueAttributes ++ array)

/-- No name has a zero byte in it, and no two groups have the same name. -/
structure WellNamed (f : Family) : Prop where
  name : '\x00' ∉ f.name.toList
  groupNames : ∀ g ∈ f.groups, '\x00' ∉ g.1.toList
  distinct : (f.groups.map (·.1)).Nodup

variable {groups : List (String × UInt32)} {nests : List Attribute}

/-! ## Groups -/

theorem insertGroup_of_new {name : String} (h : name ∉ groups.map (·.1)) (id : UInt32) :
    insertGroup groups name id = groups ++ [(name, id)] := by
  have hnone : groups.any (·.1 = name) = false := by
    rw [List.any_eq_false]
    intro g hg hsame
    exact h (of_decide_eq_true hsame ▸ List.mem_map_of_mem hg)
  rw [insertGroup, hnone]
  rfl

/-- The groups of an array are read behind those that were read before. -/
theorem readGroups_nested (h : Nested nests groups) {before : List (String × UInt32)}
    (hdistinct : ((before ++ groups).map (·.1)).Nodup)
    (hnames : ∀ g ∈ groups, '\x00' ∉ g.1.toList) (hnests : ∀ nest ∈ nests, nest.Declarable) :
    readGroups before nests = pure (before ++ groups) := by
  induction h generalizing before with
  | nil =>
    rw [List.append_nil]
    rfl
  | @cons nests inner groups name id type either behind ih =>
    obtain ⟨hname, hnames⟩ := List.forall_mem_cons.mp hnames
    obtain ⟨hnest, hnests⟩ := List.forall_mem_cons.mp hnests
    have hinner : ∀ a ∈ inner, a.Declarable :=
      Attribute.declarable_of_encodeAll (Nat.lt_of_le_of_lt (Nat.le_add_left ..) hnest)
    have htypes : [plainType groupNameType, plainType groupIdType].Nodup := by decide
    have hnamed : ((Attribute.Table.empty groupIdType).fileAll Attribute.nestedFlag inner).get?
        groupNameType = some (.ofText groupNameType name) := by
      rw [Attribute.Table.get?_plainType (by decide)]
      exact Attribute.find?_plainType either htypes (List.mem_cons_self ..)
        (by decide : plainType groupNameType = groupNameType)
    have hnumbered : ((Attribute.Table.empty groupIdType).fileAll Attribute.nestedFlag inner).get?
        groupIdType = some (.ofU32 groupIdType id) := by
      rw [Attribute.Table.get?_plainType (by decide)]
      exact Attribute.find?_plainType either htypes (by simp)
        (by decide : plainType groupIdType = groupIdType)
    have hnew : name ∉ before.map (·.1) := by
      intro hold
      rw [List.map_append] at hdistinct
      exact (List.nodup_append.mp hdistinct).2.2 name hold name (List.mem_cons_self ..) rfl
    rw [List.append_cons] at hdistinct ⊢
    rw [readGroups, Attribute.readClearing_encodeAll hinner, liftM_pure, pure_bind]
    simp only [hnamed, hnumbered, Attribute.text_ofText hname, Attribute.u32_ofU32]
    rw [Decoded.ofExcept_ok, Decoded.ofExcept_ok, pure_bind, pure_bind, insertGroup_of_new hnew,
      ih hdistinct hnames hnests]

/-! ## Families -/

theorem group?_eq_some_iff {f : Family} (h : f.WellNamed) (name : String) (id : UInt32) :
    f.group? name = some id ↔ (name, id) ∈ f.groups := by
  have hdistinct := h.distinct
  rw [group?]
  generalize f.groups = groups at hdistinct ⊢
  induction groups with
  | nil => simp
  | cons g groups ih =>
    obtain ⟨hfirst, hrest⟩ := List.nodup_cons.mp hdistinct
    obtain ⟨own, number⟩ := g
    rw [List.lookup_cons, List.mem_cons, Prod.mk.injEq]
    by_cases hsame : name = own
    · subst hsame
      have hlater : (name, id) ∉ groups := fun hmem =>
        hfirst (List.mem_map.mpr ⟨_, hmem, rfl⟩)
      simp [hlater, eq_comm]
    · have hother : (name == own) = false := beq_false_of_ne hsame
      simp [hsame, hother, ih hrest]

theorem field_of_get? {α : Type} {t : Attribute.Table} {type : UInt16} {a : Attribute}
    {read : Attribute → Except Error α} {v : α} (h : t.get? type = some a) (hread : read a = .ok v)
    (default : α) : field t type default read = pure v := by
  simp only [field, h, hread]
  exact Decoded.ofExcept_ok v

theorem types_valueAttributes (f : Family) : f.valueAttributes.map (·.type) = valueTypes := rfl

theorem mem_valueTypes {f : Family} {a : Attribute} (h : a ∈ f.valueAttributes) :
    a.type ∈ valueTypes := by
  rw [← f.types_valueAttributes]
  exact List.mem_map_of_mem h

theorem plainType_of_known {type : UInt16} (h : type ∈ knownTypes) : plainType type = type := by
  have hall : knownTypes.all (fun type => plainType type == type) = true := by decide
  exact eq_of_beq (List.all_eq_true.mp hall type h)

theorem plainType_of_value {f : Family} {a : Attribute} (h : a ∈ f.valueAttributes) :
    plainType a.type = a.type :=
  plainType_of_known (List.mem_append_left _ (mem_valueTypes h))

/-- No two of the attributes that tell of a family have the same type. -/
theorem distinct_told (f : Family) {array : List Attribute} (h : ArrayOf groups array) :
    ((f.valueAttributes ++ array).map (plainType ·.type)).Nodup := by
  have hvalues : f.valueAttributes.map (plainType ·.type) = valueTypes := by
    rw [← f.types_valueAttributes]
    exact List.map_congr_left fun a ha => plainType_of_value ha
  rw [List.map_append, hvalues]
  cases h with
  | absent => decide
  | present plain nested =>
    rw [List.map_singleton, plain]
    decide

/-- Attributes of types that are not known do not come into the table. -/
theorem get?_known {as : List Attribute} {type : UInt16} (h : type ∈ knownTypes) :
    ((Attribute.Table.empty maxType).fileAll Attribute.nestedFlag as).get? type =
      (as.filter fun a => plainType a.type ∈ knownTypes).find? (plainType ·.type = type) := by
  have hmax : knownTypes.all (· ≤ maxType) = true := by decide
  rw [Attribute.Table.get?_plainType (of_decide_eq_true (List.all_eq_true.mp hmax type h)),
    List.find?_filter]
  refine congrArg (List.find? · as) (funext fun a => ?_)
  by_cases hsame : plainType a.type = type <;> simp [hsame, h]

section Told

variable {f : Family} {as array : List Attribute}

theorem get?_told (harray : ArrayOf f.groups array)
    (hperm : (as.filter fun a => plainType a.type ∈ knownTypes).Perm (f.valueAttributes ++ array))
    {a : Attribute} (ha : a ∈ f.valueAttributes ++ array) {type : UInt16}
    (htype : plainType a.type = type) (h : type ∈ knownTypes) :
    ((Attribute.Table.empty maxType).fileAll Attribute.nestedFlag as).get? type = some a := by
  rw [get?_known h]
  exact Attribute.find?_plainType hperm (distinct_told f harray) ha htype

/-- There is no array and there are no groups, or the array is found and its groups are read. -/
theorem groups_told (hf : f.WellNamed) (harray : ArrayOf f.groups array)
    (hperm : (as.filter fun a => plainType a.type ∈ knownTypes).Perm (f.valueAttributes ++ array))
    (hwhole : ∀ a ∈ as, a.Declarable) :
    let table := (Attribute.Table.empty maxType).fileAll Attribute.nestedFlag as
    table.get? groupsType = none ∧ f.groups = [] ∨
      ∃ a, table.get? groupsType = some a ∧
        readGroups [] a.children.attributes = pure f.groups := by
  intro table
  have hfound {a : Attribute} (ha : a ∈ f.valueAttributes ++ array)
      (htype : plainType a.type = groupsType) : table.get? groupsType = some a :=
    get?_told harray hperm ha htype (by decide)
  have hdistinct := hf.distinct
  have hnames := hf.groupNames
  generalize f.groups = groups at harray hdistinct hnames ⊢
  cases harray with
  | absent =>
    refine .inl ⟨?_, rfl⟩
    rw [get?_known (by decide), List.find?_eq_none]
    intro a ha hsame
    have hvalue : a ∈ f.valueAttributes := by simpa using hperm.mem_iff.mp ha
    have hmem := mem_valueTypes hvalue
    rw [← plainType_of_value hvalue, of_decide_eq_true hsame] at hmem
    exact absurd hmem (by decide)
  | @present nests _ type plain nested =>
    have hmem : ⟨type, encodeAll nests⟩ ∈ f.valueAttributes ++ [⟨type, encodeAll nests⟩] :=
      List.mem_append_right _ (List.mem_singleton_self _)
    have hrecord := hwhole _ (List.mem_filter.mp (hperm.mem_iff.mpr hmem)).1
    have hnests : ∀ nest ∈ nests, nest.Declarable :=
      Attribute.declarable_of_encodeAll (Nat.lt_of_le_of_lt (Nat.le_add_left ..) hrecord)
    refine .inr ⟨_, hfound hmem plain, ?_⟩
    rw [Attribute.children, Attribute.walk_encodeAll hnests]
    exact readGroups_nested nested hdistinct hnames hnests

theorem read_told {header : GenericHeader} (hf : f.WellNamed) (htold : f.ToldBy as)
    (hwhole : ∀ a ∈ as, a.Declarable) : read (header.encode ++ encodeAll as) = pure f := by
  have hheader : header.encode.length = GenericHeader.size := by
    simp [GenericHeader.encode, GenericHeader.size]
  have hdecode : GenericHeader.decode (header.encode ++ encodeAll as) =
      .ok (GenericHeader.ofBytes header.encode) := by
    rw [GenericHeader.decode, Wire.split?_append hheader]
  obtain ⟨array, harray, hperm⟩ := htold
  let table := (Attribute.Table.empty maxType).fileAll Attribute.nestedFlag as
  have hvalues : ∀ a ∈ f.valueAttributes, table.get? a.type = some a := fun a ha =>
    get?_told harray hperm (List.mem_append_left _ ha) (plainType_of_value ha)
      (List.mem_append_left _ (mem_valueTypes ha))
  simp only [valueAttributes, List.forall_mem_cons] at hvalues
  obtain ⟨hid, hname, hversion, hsize, hmost, -⟩ := hvalues
  have hid : table.get? idType = some (.ofU16 idType f.id) := hid
  have hname : field table nameType "" Attribute.text = pure f.name :=
    field_of_get? hname (Attribute.text_ofText hf.name nameType) ""
  have hversion : field table versionType 0 Attribute.u32 = pure f.version.toUInt32 :=
    field_of_get? hversion (Attribute.u32_ofU32 versionType f.version.toUInt32) 0
  have hsize : field table headerSizeType 0 Attribute.u32 = pure f.headerSize :=
    field_of_get? hsize (Attribute.u32_ofU32 headerSizeType f.headerSize) 0
  have hmost : field table maxAttributeType 0 Attribute.u32 = pure f.maxAttribute :=
    field_of_get? hmost (Attribute.u32_ofU32 maxAttributeType f.maxAttribute) 0
  rw [read, hdecode, List.drop_left' hheader, Attribute.readClearing_encodeAll hwhole,
    Decoded.ofExcept_ok, pure_bind, liftM_pure, pure_bind]
  simp only [table] at hid hname hversion hsize hmost
  simp only [hid, hname, hversion, hsize, hmost, Attribute.u16_ofU16, Decoded.ofExcept_ok,
    pure_bind, UInt8.toUInt8_toUInt32]
  rcases groups_told hf harray hperm hwhole with ⟨hnone, hgroups⟩ | ⟨a, hheld, hread⟩
  · rw [hnone, ← hgroups]
  · rw [hheld]
    simp only [hread, pure_bind]

end Told

/-- **A family is read back as it was told.** Let the payload of a message have been built from a
header and parts that tell of a family whose names have no zero bytes and whose groups have different
names: in any order and with any attributes of other types among them; the parts written in place or
aside, and the array and the nests of the groups marked or not; the nests of any types, and with name
and number in either order. Then the family is read, with nothing to report, and its groups are found
by name just as they were told. -/
theorem read_built {f : Family} {header : GenericHeader} {ps : List Draft.Part} {d₀ d : Draft}
    (hf : f.WellNamed) (hfresh : Draft.Fresh d₀) (htold : f.ToldBy (ps.map Draft.Part.written))
    (hbuilt : d₀.build header.encode ps = .ok d) :
    read (d.encode.drop Netlink.headerSize) = pure f ∧
      ∀ name id, f.group? name = some id ↔ (name, id) ∈ f.groups := by
  have hgrid : header.encode.length % 4 = 0 := by simp [GenericHeader.encode]
  obtain ⟨hpayload, hwhole⟩ := Draft.Part.body_of_built hfresh hgrid hbuilt
  rw [hpayload]
  exact ⟨read_told hf htold hwhole, group?_eq_some_iff hf⟩

/-- Two groups in a tree that was built aside, the second with its number before its name; and two
attributes of other types among those of the family, one of them a nest. -/
theorem read_built_sample :
    let f : Family := ⟨21, "sensor", 3, 8, 12, [("alarm", 40), ("state", 41)]⟩
    let groups : Forest :=
      .nest 1 (.leaf groupNameType (Attribute.ofText groupNameType "alarm").payload
          (.leaf groupIdType (Wire.le32 40) .nil))
        (.nest 2 (.leaf groupIdType (Wire.le32 41)
          (.leaf groupNameType (Attribute.ofText groupNameType "state").payload .nil)) .nil)
    let ps : List Draft.Part :=
      [.leaf (.ofU32 maxAttributeType 12), .nest 6 (.leaf 1 [3] .nil), .leaf (.ofU32 headerSizeType 8),
        .tree (groupsType ||| Attribute.nestedFlag) 256 groups, .leaf (.ofText nameType "sensor"),
        .leaf (.ofU16 300 5), .leaf (.ofU16 idType 21), .leaf (.ofU32 versionType 3)]
    let d₀ := Draft.new MessageType.controller 0
    f.WellNamed ∧ Draft.Fresh d₀ ∧ f.ToldBy (ps.map Draft.Part.written) ∧
      ∃ d, d₀.build (GenericHeader.encode ⟨1, 2, 0⟩) ps = .ok d ∧
        read (d.encode.drop Netlink.headerSize) = pure f ∧ f.group? "state" = some 41 := by
  intro f groups ps d₀
  have hf : f.WellNamed := ⟨by decide, by decide, by decide⟩
  have hfresh : Draft.Fresh d₀ := .new ..
  let array : List Attribute :=
    [⟨groupsType ||| Attribute.nestedFlag, encodeAll
      [⟨1 ||| Attribute.nestedFlag, encodeAll [.ofText groupNameType "alarm", .ofU32 groupIdType 40]⟩,
        ⟨2 ||| Attribute.nestedFlag,
          encodeAll [.ofU32 groupIdType 41, .ofText groupNameType "state"]⟩]⟩]
  have harray : ArrayOf f.groups array :=
    .present (by decide) (.cons _ (.refl _) (.cons _ (.swap ..) .nil))
  have htold : f.ToldBy (ps.map Draft.Part.written) := ⟨array, harray, by decide +kernel⟩
  have hisOk : (d₀.build (GenericHeader.encode ⟨1, 2, 0⟩) ps).isOk = true := by decide +kernel
  cases hbuilt : d₀.build (GenericHeader.encode ⟨1, 2, 0⟩) ps with
  | error e =>
    rw [hbuilt] at hisOk
    cases hisOk
  | ok d =>
    obtain ⟨hread, hgroups⟩ := read_built hf hfresh htold hbuilt
    exact ⟨hf, hfresh, htold, d, rfl, hread, (hgroups "state" 41).mpr (by decide)⟩

end Family
end Netlink
