import Netlink.Proofs.Attribute.Marks
import Netlink.Proofs.Draft.Parts
import Netlink.Proofs.Link.Firsts

/-! # Nests that are marked

The kind of an interface stands in a nest, and the reading looks for that nest by its type as it
stands. A nest that is marked as one has another type, so it is passed over like an attribute that is
not known, and its kind with it. A tree that is built aside marks every nest inside it. -/

namespace Netlink.Link

open Attribute (Held held first? walk encodeAll)

variable {info : Bytes} {front back : List Attribute} {payload : Bytes}

/-- No known type has the mark. -/
theorem marksNest_of_known {type : UInt16} (h : type ∈ knownTypes) :
    Attribute.marksNest type = false := by
  have hall : knownTypes.all (fun type => !Attribute.marksNest type) = true := by decide
  simpa using List.all_eq_true.mp hall type h

theorem first?_of_absent {as : List Attribute} {type : UInt16} (h : ∀ a ∈ as, a.type ≠ type) :
    first? as type = none := by
  rw [first?, List.find?_eq_none]
  intro a ha hsame
  exact h a ha (of_decide_eq_true hsame)

/-- The kind comes in last: the other fields are those of a link without the nest. -/
theorem assemble_of_rest (fixed : InterfaceInfo) {first rest : UInt16 → Option Attribute}
    (hsame : ∀ type ∈ knownTypes, type ≠ infoType → first type = rest type)
    (hnone : rest infoType = none) :
    assemble fixed first = do
      let kind ← held Attribute.text (kindAmong first)
      let link ← assemble fixed rest
      return { link with kind } := by
  have hkind : held Attribute.text (kindAmong rest) = pure none := by
    rw [kindAmong, hnone]
    rfl
  rw [assemble, assemble, hkind, hsame nameType (by decide) (by decide),
    hsame mtuType (by decide) (by decide), hsame queueLengthType (by decide) (by decide),
    hsame operStateType (by decide) (by decide), hsame masterType (by decide) (by decide),
    hsame lowerType (by decide) (by decide)]
  simp only [pure_bind, bind_assoc]

theorem kindAmong_of_encode {first : UInt16 → Option Attribute} {kind : Attribute}
    (hnest : first infoType = some ⟨infoType, kind.encode⟩) (hdeclarable : kind.Declarable)
    (htype : kind.type = kindType) : kindAmong first = some kind := by
  have hwalk := Attribute.walk_encodeAll (List.forall_mem_singleton.mpr hdeclarable)
  rw [Attribute.encodeAll_singleton] at hwalk
  simp [kindAmong, hnest, hwalk, first?, htype]

theorem result_read_encodeAll (hinfo : info.length = InterfaceInfo.size) {as : List Attribute}
    (has : ∀ a ∈ as, a.Declarable) :
    (read (info ++ encodeAll as)).result =
      assemble (InterfaceInfo.ofBytes info) (first? as) := by
  rw [result_read hinfo, Attribute.walk_encodeAll has]

/-- A link that was read without a nest of its type has no kind. -/
theorem kind_of_absent {fixed : InterfaceInfo} {as : List Attribute} {link : Link}
    (habsent : first? as infoType = none) (h : assemble fixed (first? as) = .ok link) :
    link.kind = none := by
  have hkind := (assemble_eq_ok.mp h).kind
  rw [kindAmong, habsent] at hkind
  generalize link.kind = kind at hkind ⊢
  cases hkind
  rfl

/-- A marked nest is the first of no known type. -/
theorem read_marked (hinfo : info.length = InterfaceInfo.size)
    (hwhole : ∀ a ∈ front ++ [⟨infoType, payload⟩] ++ back, a.Declarable) :
    (read (info ++ encodeAll
        (front ++ [Attribute.marked ⟨infoType, payload⟩] ++ back))).result =
      (read (info ++ encodeAll (front ++ back))).result := by
  obtain ⟨hfront, hback⟩ := List.forall_mem_append.mp hwhole
  obtain ⟨hfront, hnest⟩ := List.forall_mem_append.mp hfront
  have hsize : (Attribute.marked ⟨infoType, payload⟩).Declarable :=
    hnest ⟨infoType, payload⟩ (List.mem_singleton_self _)
  have hmarked : ∀ a ∈ front ++ [Attribute.marked ⟨infoType, payload⟩] ++ back, a.Declarable :=
    List.forall_mem_append.mpr
      ⟨List.forall_mem_append.mpr ⟨hfront, List.forall_mem_singleton.mpr hsize⟩, hback⟩
  rw [result_read_encodeAll hinfo hmarked,
    result_read_encodeAll hinfo (List.forall_mem_append.mpr ⟨hfront, hback⟩)]
  refine assemble_congr _ fun type hknown => Attribute.first?_insert fun a ha hsame => ?_
  obtain rfl := List.mem_singleton.mp ha
  exact absurd hsame (Attribute.marked_ne (marksNest_of_known hknown))

/-- The only nest that holds a kind is read first, and then what is left without it. -/
theorem read_only_nest (hinfo : info.length = InterfaceInfo.size)
    (hwhole : ∀ a ∈ front ++ [⟨infoType, payload⟩] ++ back, a.Declarable)
    (honly : ∀ a ∈ front ++ back, a.type ≠ infoType) :
    (read (info ++ encodeAll (front ++ [⟨infoType, payload⟩] ++ back))).result = do
      let kind ← held Attribute.text (first? (walk payload).attributes kindType)
      let link ← (read (info ++ encodeAll (front ++ back))).result
      return { link with kind } := by
  obtain ⟨hfront, hback⟩ := List.forall_mem_append.mp hwhole
  obtain ⟨hfront, -⟩ := List.forall_mem_append.mp hfront
  have hfound : first? (front ++ [⟨infoType, payload⟩] ++ back) infoType =
      some ⟨infoType, payload⟩ := by
    have hnone := first?_of_absent (List.forall_mem_append.mp honly).1
    rw [Attribute.first?_append, Attribute.first?_append, hnone]
    rfl
  have hother : ∀ type ∈ knownTypes, type ≠ infoType →
      first? (front ++ [⟨infoType, payload⟩] ++ back) type = first? (front ++ back) type := by
    intro type _ hne
    refine Attribute.first?_insert fun a ha hsame => ?_
    obtain rfl := List.mem_singleton.mp ha
    exact absurd hsame.symm hne
  rw [result_read_encodeAll hinfo hwhole, assemble_of_rest _ hother (first?_of_absent honly),
    kindAmong, hfound, result_read_encodeAll hinfo (List.forall_mem_append.mpr ⟨hfront, hback⟩)]
  rfl

/-- Of a tree that was built aside, only the leaves at the top are read. -/
theorem read_tree (hinfo : info.length = InterfaceInfo.size) {type : UInt16} {capacity : Nat}
    {forest : Forest} {tree : Draft.Tree} (hgrow : forest.grow (.new type capacity) = .ok tree) :
    (read (info ++ tree.children.bytes)).result =
      (read (info ++ encodeAll forest.leaves)).result := by
  obtain ⟨-, hbytes, hforest, -⟩ := Forest.eq_of_grow hgrow
  rw [hbytes, result_read hinfo, Forest.walk_encode hforest,
    result_read_encodeAll hinfo (Forest.declarable_leaves hforest)]
  exact assemble_congr _ fun type hknown => forest.find?_marked (marksNest_of_known hknown)

/-- **A marked nest is passed over.** Let the attributes behind the fixed part of a message about an
interface be records that are whole, one of them a nest of the type that holds the kind. With the
nest marked, the message is read as if the nest were not there. Without the mark, and if it is the
only one of its type, the kind in it is read first and then the rest: so where the message is read,
the mark takes the kind away and nothing else, and makes no difference exactly if there was no kind.
Of the children of a tree that was built aside only the leaves are read, so that no kind in a nest of
it ever is. -/
theorem marked_nest_unread (hinfo : info.length = InterfaceInfo.size)
    (hwhole : ∀ a ∈ front ++ [⟨infoType, payload⟩] ++ back, a.Declarable) :
    let nest : Attribute := ⟨infoType, payload⟩
    let plain := (read (info ++ encodeAll (front ++ [nest] ++ back))).result
    let marked := (read (info ++ encodeAll (front ++ [nest.marked] ++ back))).result
    let without := (read (info ++ encodeAll (front ++ back))).result
    marked = without ∧
      ((∀ a ∈ front ++ back, a.type ≠ infoType) →
        (plain = do
          let kind ← held Attribute.text (first? (walk payload).attributes kindType)
          let link ← without
          return { link with kind }) ∧
        ∀ link, plain = .ok link → marked = .ok { link with kind := none } ∧
          (marked = plain ↔ link.kind = none)) ∧
      ∀ type capacity forest tree, Forest.grow forest (.new type capacity) = .ok tree →
        (read (info ++ tree.children.bytes)).result =
          (read (info ++ encodeAll forest.leaves)).result := by
  intro nest plain marked without
  have hunread : marked = without := read_marked hinfo hwhole
  refine ⟨hunread, fun honly => ?_, fun type capacity forest tree hgrow => read_tree hinfo hgrow⟩
  have hplain : plain = _ := read_only_nest hinfo hwhole honly
  refine ⟨hplain, fun link hlink => ?_⟩
  have hread := hlink
  rw [hplain] at hread
  obtain ⟨kind, -, hread⟩ := bind_eq_ok.mp hread
  obtain ⟨bare, hbare, hlast⟩ := bind_eq_ok.mp hread
  obtain rfl := Except.ok.inj hlast
  have hrest : ∀ a ∈ front ++ back, a.Declarable := by
    simp only [List.forall_mem_append] at hwhole ⊢
    exact ⟨hwhole.1.1, hwhole.2⟩
  have hnokind : bare.kind = none :=
    kind_of_absent (first?_of_absent honly) ((result_read_encodeAll hinfo hrest).symm.trans hbare)
  have hlost : marked = .ok { bare with kind := none } := by
    rw [hunread, ← hnokind]
    exact hbare
  refine ⟨hlost, ?_⟩
  rw [hlost, hlink, Except.ok.injEq, Link.mk.injEq]
  simp only [true_and]
  exact eq_comm

/-- A name, and the nest of a virtual device. -/
theorem marked_nest_unread_sample :
    let info := InterfaceInfo.encode { index := 6, deviceType := 1 }
    let name := Attribute.ofText nameType "veth0"
    let nest : Attribute := ⟨infoType, Attribute.encode (Attribute.ofText kindType "veth")⟩
    let link : Link := ⟨6, 0, 1, some "veth0", none, none, none, none, none, some "veth"⟩
    info.length = InterfaceInfo.size ∧ (∀ a ∈ [name] ++ [nest] ++ [], a.Declarable) ∧
      (∀ a ∈ [name] ++ [], a.type ≠ infoType) ∧
      (read (info ++ encodeAll ([name] ++ [nest] ++ []))).result = .ok link ∧
      (read (info ++ encodeAll ([name] ++ [nest.marked] ++ []))).result =
        .ok { link with kind := none } := by
  intro info name nest link
  have hinfo : info.length = InterfaceInfo.size := by decide
  have hwhole : ∀ a ∈ [name] ++ [nest] ++ [], a.Declarable :=
    List.forall_mem_cons.mpr ⟨Attribute.declarable_of_length (by decide),
      List.forall_mem_singleton.mpr (Attribute.declarable_of_length (by decide))⟩
  have honly : ∀ a ∈ [name] ++ [], a.type ≠ infoType := List.forall_mem_singleton.mpr (by decide)
  have hkind : kindAmong (first? ([name] ++ [nest] ++ [])) =
      some (Attribute.ofText kindType "veth") :=
    kindAmong_of_encode rfl (Attribute.declarable_of_length (by decide)) rfl
  have hlink : Describes (InterfaceInfo.ofBytes info) ([name] ++ [nest] ++ []) link := {
    index := rfl
    flags := rfl
    deviceType := rfl
    name := .present (Attribute.text_ofText (by decide) nameType)
    mtu := .absent
    queueLength := .absent
    operState := ⟨none, .absent, rfl⟩
    master := .absent
    lower := .absent
    kind := hkind ▸ .present (Attribute.text_ofText (by decide) kindType) }
  have hplain := (result_read_encodeAll hinfo hwhole).trans (assemble_eq_ok.mpr hlink)
  obtain ⟨-, hunmarked, -⟩ := marked_nest_unread hinfo hwhole
  exact ⟨hinfo, hwhole, honly, hplain, ((hunmarked honly).2 link hplain).1⟩

/-- The kind of a virtual device stands in a nest of a tree that is built aside, marked as such a
tree marks it. It is not read; without the mark it is. -/
theorem built_nest_unread :
    let info := InterfaceInfo.encode { index := 9, deviceType := 1 }
    let kind := Attribute.ofText kindType "vlan"
    let nest : Attribute := ⟨infoType, kind.encode⟩
    let link : Link := ⟨9, 0, 1, none, none, none, none, none, none, none⟩
    (∃ tree, Forest.grow (.nest infoType (.leaf kind.type kind.payload .nil) .nil)
        (.new 0 Draft.maxRecord) = .ok tree ∧ tree.children.bytes = nest.marked.encode) ∧
      (read (info ++ nest.marked.encode)).result = .ok link ∧
      (read (info ++ nest.encode)).result = .ok { link with kind := some "vlan" } := by
  intro info kind nest link
  have hinfo : info.length = InterfaceInfo.size := by decide
  have hwhole : ∀ a ∈ [nest], a.Declarable :=
    List.forall_mem_singleton.mpr (Attribute.declarable_of_length (by decide))
  have hmarked : ∀ a ∈ [nest.marked], a.Declarable :=
    List.forall_mem_singleton.mpr (hwhole nest (List.mem_singleton_self nest))
  have hkind : kindAmong (first? [nest]) = some kind :=
    kindAmong_of_encode rfl (Attribute.declarable_of_length (by decide)) rfl
  have hother {type : UInt16} (h : Attribute.marksNest type = false) :
      first? [nest.marked] type = none :=
    first?_of_absent (List.forall_mem_singleton.mpr (Attribute.marked_ne h))
  have habsent {α : Type} {readAs : Attribute → Except Error α} {type : UInt16}
      (h : Attribute.marksNest type = false) : Held readAs (first? [nest.marked] type) none := by
    rw [hother h]
    exact .absent
  have hnokind : kindAmong (first? [nest.marked]) = none := by
    rw [kindAmong, hother rfl]
    rfl
  have hempty : Describes (InterfaceInfo.ofBytes info) [nest.marked] link :=
    ⟨rfl, rfl, rfl, habsent rfl, habsent rfl, habsent rfl, ⟨none, habsent rfl, rfl⟩, habsent rfl,
      habsent rfl, hnokind ▸ .absent⟩
  have hfull : Describes (InterfaceInfo.ofBytes info) [nest] { link with kind := some "vlan" } :=
    ⟨rfl, rfl, rfl, .absent, .absent, .absent, ⟨none, .absent, rfl⟩, .absent, .absent,
      hkind ▸ .present (Attribute.text_ofText (by decide) kindType)⟩
  let forest : Forest := .nest infoType (.leaf kind.type kind.payload .nil) .nil
  have hgrown : forest.grow (.new 0 Draft.maxRecord) =
      .ok ⟨0, (Draft.Tree.new 0 Draft.maxRecord).children.extend forest.marked.encode⟩ :=
    (Forest.grow_new_eq_ok_iff (Nat.le_refl _)).mpr ⟨rfl, by decide⟩
  have hread {as : List Attribute} {found : Link} (has : ∀ a ∈ as, a.Declarable)
      (hfound : Describes (InterfaceInfo.ofBytes info) as found) :=
    (result_read_encodeAll hinfo has).trans (assemble_eq_ok.mpr hfound)
  refine ⟨⟨_, hgrown, ?_⟩, ?_, ?_⟩
  · simp [forest, nest, Forest.marked, Forest.encode, Attribute.marked, Draft.Buffer.extend,
      Draft.Tree.new]
  · rw [← Attribute.encodeAll_singleton]
    exact hread hmarked hempty
  · rw [← Attribute.encodeAll_singleton]
    exact hread hwhole hfull

end Netlink.Link
