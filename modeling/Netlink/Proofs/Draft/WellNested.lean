import Netlink.Proofs.Draft.Steps

/-! # Well-nested work

Where every step that closes a nest closes the latest one that is open, the headers of the open
nests stand one behind another inside the body, whatever fails on the way. So no such step looks for
a header that has been cut off. -/

namespace Netlink.Draft

/-- Where the headers of the nest end. -/
def AnyMark.last : AnyMark → Nat
  | .plain mark => mark.offset + Attribute.headerSize
  | .compat mark => mark.inner.offset + Attribute.headerSize

theorem AnyMark.OnGrid.behind {mark : AnyMark} (h : mark.OnGrid) : mark.Behind mark.first := by
  cases mark with
  | plain mark => exact Nat.le_refl _
  | compat mark => exact ⟨Nat.le_refl _, Nat.le_trans (Nat.le_add_right ..) h.2.2⟩

theorem AnyMark.OnGrid.first_le_last {mark : AnyMark} (h : mark.OnGrid) :
    mark.first ≤ mark.last := by
  cases mark with
  | plain mark => exact Nat.le_add_right ..
  | compat mark => exact Nat.le_trans h.behind.2 (Nat.le_add_right ..)

theorem AnyMark.Inside.last_le {b : Buffer} {mark : AnyMark} (h : mark.Inside b) :
    mark.last ≤ b.bytes.length := by
  cases mark with
  | plain mark => exact h
  | compat mark => exact h.2

theorem AnyMark.OnGrid.inside {b : Buffer} {mark : AnyMark} (h : mark.OnGrid)
    (hlast : mark.last ≤ b.bytes.length) : mark.Inside b := by
  cases mark with
  | plain mark => exact hlast
  | compat mark => exact ⟨Nat.le_trans h.2.2 (Nat.le_trans (Nat.le_add_right ..) hlast), hlast⟩

/-- A nest that is closed leaves at least what stands in front of its headers. -/
theorem first_le_close {d : Draft} {mark : AnyMark} (h : mark.OnGrid)
    (hfirst : mark.first ≤ d.body.bytes.length) :
    mark.first ≤ (d.close mark).2.body.bytes.length := by
  let front : Buffer := d.body.cut mark.first
  have hlength : front.bytes.length = mark.first := List.length_take_of_le hfirst
  have hbody : d.body = front.extend (d.body.bytes.drop mark.first) := by
    simp only [front, Buffer.cut, Buffer.extend, List.take_append_drop]
  obtain ⟨kept, hkept⟩ := exists_extend_close hbody (hlength.symm ▸ h.behind)
  rw [hkept, Buffer.extend, List.length_append, hlength]
  exact Nat.le_add_right ..

namespace Work

/-- Every step that closes a nest closes the latest one that is open. -/
def ClosesLatest (w : Work) : List Step → Prop
  | [] => True
  | s :: steps =>
    (∀ k ∈ w.closes? s, w.nests.latestOpen? = some k) ∧ (w.step s).2.ClosesLatest steps

/-- The headers of the open nests stand one behind another inside the body. -/
structure Stacked (w : Work) : Prop where
  apart : w.nests.opened.Pairwise fun a b => a.last ≤ b.first
  inside : ∀ mark ∈ w.nests.opened, mark.last ≤ w.draft.body.bytes.length

theorem Stacked.step {w : Work} {s : Step} (h : w.Stacked) (hw : w.Sound)
    (hs : ∀ k ∈ w.closes? s, w.nests.latestOpen? = some k) : (w.step s).2.Stacked := by
  cases hturn : w.step s with
  | mk outcome w' =>
    cases hturn ▸ w.turn s with
    | wrote added _ body nests =>
      refine ⟨nests ▸ h.apart, fun mark hmark => ?_⟩
      rw [nests] at hmark
      rw [body, Buffer.extend, List.length_append]
      exact Nat.le_trans (h.inside mark hmark) (Nat.le_add_right ..)
    | opened added mark body nests first _ inside =>
      have hopened : w'.nests.opened = w.nests.opened ++ [mark] := by
        rw [nests, Nests.opened_append]
        rfl
      have hgrows : w.draft.body.bytes.length ≤ w'.draft.body.bytes.length := by
        rw [body, Buffer.extend, List.length_append]
        exact Nat.le_add_right ..
      constructor
      · rw [hopened, List.pairwise_append]
        refine ⟨h.apart, List.pairwise_singleton .., fun a ha b hb => ?_⟩
        rw [List.mem_singleton.mp hb, first]
        exact Nat.le_trans (h.inside a ha) (Wire.le_align4 _)
      · intro a ha
        rw [hopened] at ha
        rcases List.mem_append.mp ha with ha | ha
        · exact Nat.le_trans (h.inside a ha) hgrows
        · rw [List.mem_singleton.mp ha]
          exact inside.last_le
    | closed k mark _ closes nest draft nests =>
      obtain ⟨mark', hmark', hopened⟩ := Nests.opened_of_latestOpen? (hs k closes)
      obtain rfl : mark' = mark := by
        rw [nest] at hmark'
        exact (Prod.mk.inj (Option.some.inj hmark')).1.symm
      rw [← nests] at hopened
      have hgrid := hw.marks _ (List.mem_of_getElem? nest)
      obtain ⟨hapart, -, hbelow⟩ := List.pairwise_append.mp (hopened ▸ h.apart)
      refine ⟨hapart, fun a ha => Nat.le_trans (hbelow a ha mark' (List.mem_singleton_self _)) ?_⟩
      rw [draft]
      refine first_le_close hgrid ?_
      have hlast := h.inside mark' (hopened ▸ List.mem_append_right _ (List.mem_singleton_self _))
      exact Nat.le_trans hgrid.first_le_last hlast

/-- The latest open nest is found inside the body. -/
theorem Stacked.permits {w : Work} {s : Step} (h : w.Stacked) (hw : w.Sound)
    (hs : ∀ k ∈ w.closes? s, w.nests.latestOpen? = some k) : w.Permits s := by
  intro mark hmark
  cases s with
  | close number =>
    obtain ⟨⟨mark', after⟩, htake, rfl⟩ := Option.map_eq_some_iff.mp hmark
    obtain ⟨k, closed, hk, hnest, -⟩ := Nests.take?_eq_some htake
    obtain ⟨mark, hopen, hopened⟩ := Nests.opened_of_latestOpen? (hs k hk)
    obtain rfl : mark = mark' := by
      rw [hnest] at hopen
      exact (Prod.mk.inj (Option.some.inj hopen)).1.symm
    have hlast : mark.last ≤ w.draft.body.bytes.length :=
      h.inside mark (hopened ▸ List.mem_append_right _ (List.mem_singleton_self _))
    exact (hw.marks _ (List.mem_of_getElem? hnest)).inside hlast
  | _ => cases hmark

/-- A run that always closes the latest open nest finds the headers of all nests that it closes. -/
theorem Stacked.run {w : Work} {steps : List Step} (h : w.Stacked) (hw : w.Sound)
    (hs : w.ClosesLatest steps) : w.ClosesInside steps ∧ (w.run steps).Stacked := by
  induction steps generalizing w with
  | nil => exact ⟨trivial, h⟩
  | cons s steps ih =>
    have hpermits := h.permits hw hs.1
    obtain ⟨hinside, hstacked⟩ := ih (h.step hw hs.1) (hw.step hpermits) hs.2
    exact ⟨⟨hpermits, hinside⟩, hstacked⟩

theorem stacked_start (d : Draft) : (start d).Stacked :=
  ⟨List.Pairwise.nil, fun mark hmark => by cases hmark⟩

/-- Where every step closes the latest open nest, no open nest has been cut off. -/
theorem inside_of_closesLatest {d : Draft} {steps : List Step} (hfresh : Fresh d)
    (hs : (start d).ClosesLatest steps) :
    (start d).ClosesInside steps ∧
      ∀ nest ∈ ((start d).run steps).nests, nest.2 = false →
        nest.1.Inside ((start d).run steps).draft.body := by
  obtain ⟨hin, hstacked⟩ := (stacked_start d).run (sound_start hfresh) hs
  refine ⟨hin, fun nest hnest hopen => ?_⟩
  obtain ⟨mark, closed⟩ := nest
  obtain rfl : closed = false := hopen
  have hgrid := ((sound_start hfresh).run hin).marks _ hnest
  exact hgrid.inside (hstacked.inside mark (Nests.mem_opened.mpr hnest))

end Work

end Netlink.Draft
