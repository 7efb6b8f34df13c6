import Netlink.Draft.Script

/-! # Numbers of nests

A step closes the nest that it names, or else the latest one that is still open. Closed nests may
stand between the others without being noticed: the same steps close the same nests, once the
numbers behind the closed ones are moved up. -/

namespace Netlink.Draft

namespace Nests

variable {α : Type}

/-- The number of the nest that a closing step means. -/
def meant? (ns : Nests α) : Option Nat → Option Nat
  | some n => some n
  | none => ns.latestOpen?

theorem take?_eq (ns : Nests α) (number : Option Nat) :
    ns.take? number = (ns.meant? number).bind fun n =>
      ns[n]?.map fun nest => (nest.1, ns.set n (nest.1, true)) := by
  have hget (n : Nat) : (ns[n]?.bind fun nest => some (nest.1, ns.set n (nest.1, true))) =
      ns[n]?.map fun nest => (nest.1, ns.set n (nest.1, true)) := by
    cases ns[n]? <;> rfl
  cases number with
  | some n => exact hget n
  | none =>
    cases hopen : ns.latestOpen? with
    | none =>
      simp only [take?, meant?, hopen]
      rfl
    | some n =>
      simp only [take?, meant?, hopen]
      exact hget n

theorem take?_eq_some {ns after : Nests α} {number : Option Nat} {mark : α}
    (h : ns.take? number = some (mark, after)) :
    ∃ n closed, ns.meant? number = some n ∧ ns[n]? = some (mark, closed) ∧
      after = ns.set n (mark, true) := by
  rw [take?_eq] at h
  obtain ⟨n, hn, htaken⟩ := Option.bind_eq_some_iff.mp h
  obtain ⟨nest, hnest, heq⟩ := Option.map_eq_some_iff.mp htaken
  obtain ⟨rfl, rfl⟩ := Prod.mk.inj heq
  exact ⟨n, nest.2, hn, hnest, rfl⟩

theorem latestOpen?_eq (ns : Nests α) :
    ns.latestOpen? = (ns.zipIdx.reverse.find? fun nest => !nest.1.2).map (·.2) := by
  rw [latestOpen?, List.findRev?_eq_find?_reverse]

/-- The latest open nest of two runs is that of the second one, if it has any. -/
theorem latestOpen?_append (xs ys : Nests α) :
    latestOpen? (xs ++ ys) = (ys.latestOpen?.map (xs.length + ·)).or xs.latestOpen? := by
  have hlater : ((ys.zipIdx (0 + xs.length)).reverse.find? fun nest => !nest.1.2).map (·.2) =
      ys.latestOpen?.map (xs.length + ·) := by
    rw [List.zipIdx_eq_map_add, ← List.map_reverse, List.find?_map, latestOpen?_eq, Option.map_map,
      Option.map_map, Nat.zero_add]
    rfl
  rw [← hlater, latestOpen?_eq, latestOpen?_eq, List.zipIdx_append, List.reverse_append,
    List.find?_append, Option.map_or]

theorem latestOpen?_of_closed {ns : Nests α} (h : ∀ nest ∈ ns, nest.2 = true) :
    ns.latestOpen? = none := by
  rw [latestOpen?_eq, Option.map_eq_none_iff, List.find?_eq_none]
  intro nest hnest
  have hmem := List.fst_mem_of_mem_zipIdx (List.mem_reverse.mp hnest)
  simp [h _ hmem]

theorem latestOpen?_lt {ns : Nests α} {n : Nat} (h : ns.latestOpen? = some n) : n < ns.length := by
  rw [latestOpen?_eq] at h
  obtain ⟨⟨nest, _⟩, hfound, rfl⟩ := Option.map_eq_some_iff.mp h
  have hmem := List.mem_reverse.mp (List.mem_of_find?_eq_some hfound)
  exact (List.mem_zipIdx' hmem).1

theorem closed_of_latestOpen? {ns : Nests α} (h : ns.latestOpen? = none) :
    ∀ nest ∈ ns, nest.2 = true := by
  rw [latestOpen?_eq, Option.map_eq_none_iff, List.find?_eq_none] at h
  intro nest hnest
  obtain ⟨n, hn, rfl⟩ := List.getElem_of_mem hnest
  have hnumbered := h (ns[n], n) (List.mem_reverse.mpr (List.mk_mem_zipIdx_iff_getElem?.mpr
    (List.getElem?_eq_getElem hn)))
  simpa using hnumbered

/-- Behind the latest open nest all are closed. -/
theorem split_of_latestOpen? {ns : Nests α} {n : Nat} (h : ns.latestOpen? = some n) :
    ∃ before mark behind, ns = before ++ (mark, false) :: behind ∧ before.length = n ∧
      ∀ nest ∈ behind, nest.2 = true := by
  induction ns generalizing n with
  | nil => cases h
  | cons nest ns ih =>
    have hcons := latestOpen?_append [nest] ns
    rw [List.singleton_append, h] at hcons
    cases hlater : latestOpen? ns with
    | some k =>
      rw [hlater, Option.map_some, Option.some_or] at hcons
      obtain ⟨before, mark, behind, rfl, rfl, hclosed⟩ := ih hlater
      refine ⟨nest :: before, mark, behind, rfl, ?_, hclosed⟩
      rw [Option.some.inj hcons, List.length_cons, Nat.add_comm]
      rfl
    | none =>
      rw [hlater, Option.map_none, Option.none_or] at hcons
      obtain ⟨mark, closed⟩ := nest
      cases closed with
      | true => cases hcons
      | false =>
        cases hcons
        exact ⟨[], mark, ns, rfl, rfl, closed_of_latestOpen? hlater⟩

/-- The nests that are still open, in the order in which they were opened. -/
def opened (ns : Nests α) : List α := (ns.filter fun nest => !nest.2).map (·.1)

theorem mem_opened {ns : Nests α} {mark : α} : mark ∈ ns.opened ↔ (mark, false) ∈ ns := by
  simp [opened]

theorem opened_append (xs ys : Nests α) : opened (xs ++ ys) = xs.opened ++ ys.opened := by
  simp [opened]

/-- To close the latest open nest takes the last one off. -/
theorem opened_of_latestOpen? {ns : Nests α} {n : Nat} (h : ns.latestOpen? = some n) :
    ∃ mark, ns[n]? = some (mark, false) ∧ ns.opened = opened (ns.set n (mark, true)) ++ [mark] := by
  obtain ⟨before, mark, behind, rfl, rfl, hclosed⟩ := split_of_latestOpen? h
  have hbehind : opened behind = [] := by
    rw [opened, List.filter_eq_nil_iff.mpr fun nest hnest => by simp [hclosed nest hnest],
      List.map_nil]
  refine ⟨mark, by simp, ?_⟩
  have hopen : opened ((mark, false) :: behind) = mark :: opened behind := rfl
  have hshut : opened ((mark, true) :: behind) = opened behind := rfl
  rw [List.set_append_right _ _ (Nat.le_refl _), Nat.sub_self, List.set_cons_zero,
    opened_append, opened_append, hopen, hshut, hbehind, List.append_nil]

/-! ## More nests among the others -/

/-- The nests with others put behind the first `n`. -/
def spliced (n : Nat) (others ns : Nests α) : Nests α := ns.take n ++ others ++ ns.drop n

/-- The number that a nest has when `m` nests are put behind the first `n`. -/
def moved (n m k : Nat) : Nat := if k < n then k else k + m

section Splicing

variable {ns others : Nests α} {n : Nat}

theorem spliced_append (hn : n ≤ ns.length) (more : Nests α) :
    spliced n others (ns ++ more) = spliced n others ns ++ more := by
  rw [spliced, spliced, List.take_append_of_le_length hn, List.drop_append_of_le_length hn,
    List.append_assoc, List.append_assoc, List.append_assoc]

theorem getElem?_spliced (hn : n ≤ ns.length) (k : Nat) :
    (spliced n others ns)[moved n others.length k]? = ns[k]? := by
  have hlength : (ns.take n).length = n := List.length_take_of_le hn
  by_cases hk : k < n
  · rw [moved, if_pos hk, spliced, List.append_assoc, List.getElem?_append_left (by omega),
      List.getElem?_take_of_lt hk]
  · have hbehind : k + others.length - (ns.take n ++ others).length = k - n := by
      rw [List.length_append, hlength]
      omega
    rw [moved, if_neg hk, spliced, List.getElem?_append_right (by rw [List.length_append]; omega),
      hbehind, List.getElem?_drop]
    congr 1
    omega

theorem set_spliced (hn : n ≤ ns.length) (k : Nat) (nest : α × Bool) :
    (spliced n others ns).set (moved n others.length k) nest =
      spliced n others (ns.set k nest) := by
  have hlength : (ns.take n).length = n := List.length_take_of_le hn
  by_cases hk : k < n
  · rw [moved, if_pos hk, spliced, spliced, List.append_assoc, List.append_assoc,
      List.set_append_left _ _ (by omega), List.take_set, List.drop_set_of_lt hk]
  · have hbehind : k + others.length - (ns.take n ++ others).length = k - n := by
      rw [List.length_append, hlength]
      omega
    rw [moved, if_neg hk, spliced, spliced,
      List.set_append_right _ _ (by rw [List.length_append]; omega), hbehind,
      List.take_set_of_le (by omega), List.drop_set, if_neg hk]

/-- Closed nests do not change which one is the latest that is open. -/
theorem latestOpen?_spliced (hn : n ≤ ns.length) (hclosed : ∀ nest ∈ others, nest.2 = true) :
    (spliced n others ns).latestOpen? = ns.latestOpen?.map (moved n others.length) := by
  have hlength : (ns.take n).length = n := List.length_take_of_le hn
  have hsplit : ns.latestOpen? =
      ((latestOpen? (ns.drop n)).map (n + ·)).or (latestOpen? (ns.take n)) := by
    have happend := latestOpen?_append (ns.take n) (ns.drop n)
    rwa [List.take_append_drop, hlength] at happend
  rw [spliced, latestOpen?_append, latestOpen?_append, latestOpen?_of_closed hclosed, hsplit,
    Option.map_none, Option.none_or, List.length_append, hlength]
  cases hlater : latestOpen? (ns.drop n) with
  | some k =>
    have hk : ¬ n + k < n := by omega
    simp only [Option.map_some, Option.some_or, moved, if_neg hk]
    congr 1
    omega
  | none =>
    cases hfirst : latestOpen? (ns.take n) with
    | none => rfl
    | some k =>
      have hk : k < n := hlength ▸ latestOpen?_lt hfirst
      simp only [Option.map_none, Option.none_or, Option.map_some, moved, if_pos hk]

theorem meant?_spliced (hn : n ≤ ns.length) (hclosed : ∀ nest ∈ others, nest.2 = true)
    (number : Option Nat) :
    (spliced n others ns).meant? (number.map (moved n others.length)) =
      (ns.meant? number).map (moved n others.length) := by
  cases number with
  | some k => rfl
  | none => exact latestOpen?_spliced hn hclosed

theorem take?_spliced (hn : n ≤ ns.length) (hclosed : ∀ nest ∈ others, nest.2 = true)
    (number : Option Nat) :
    (spliced n others ns).take? (number.map (moved n others.length)) =
      (ns.take? number).map fun (mark, after) => (mark, spliced n others after) := by
  rw [take?_eq, take?_eq, meant?_spliced hn hclosed]
  cases ns.meant? number with
  | none => rfl
  | some k =>
    simp only [Option.map_some, Option.bind_some, getElem?_spliced hn, Option.map_map]
    congr 1
    funext nest
    rw [set_spliced hn]
    rfl

end Splicing

end Nests

end Netlink.Draft
