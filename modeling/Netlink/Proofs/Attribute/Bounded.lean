import Netlink.Proofs.Attribute.Division

/-! # How far a collection by index looks

A list is gone through only up to the attribute that makes up the number that is asked for. What
stands behind it is not looked at, and is reported as if it formed no record. So the report is that
of the walk exactly if no attribute stands behind. -/

namespace Netlink.Attribute

/-- The attributes that are looked at to take `limit` of those whose type is at most `bound`: up to
the one that makes up the number, or all if there are fewer. -/
def lookedAt (bound : Nat) : Nat → List Attribute → List Attribute
  | 0, _ => []
  | _ + 1, [] => []
  | limit + 1, a :: as =>
    a :: if a.type.toNat ≤ bound then lookedAt bound limit as else lookedAt bound (limit + 1) as

/-- All are looked at exactly if none stands behind the one that makes up the number. -/
theorem lookedAt_eq_iff {bound limit : Nat} {as : List Attribute} :
    lookedAt bound limit as = as ↔
      as = [] ∨ (as.dropLast.filter (·.type.toNat ≤ bound)).length < limit := by
  induction as generalizing limit with
  | nil => cases limit <;> simp [lookedAt]
  | cons a as ih =>
    cases limit with
    | zero => simp [lookedAt]
    | succ limit =>
      cases as with
      | nil => cases limit <;> simp [lookedAt]
      | cons b bs =>
        have hlast : (a :: b :: bs).dropLast = a :: (b :: bs).dropLast := rfl
        have hsome : b :: bs ≠ [] := List.cons_ne_nil b bs
        rw [lookedAt, List.cons.injEq, hlast]
        by_cases hindexed : a.type.toNat ≤ bound
        · rw [if_pos hindexed, ih, List.filter_cons_of_pos (by simpa using hindexed)]
          simp [hsome]
        · rw [if_neg hindexed, ih, List.filter_cons_of_neg (by simpa using hindexed)]
          simp [hsome]

/-- What is left of a list was in it, and what was taken as a record is not left. -/
theorem length_rest_walk (bs : Bytes) :
    (walk bs).rest.length ≤ bs.length ∧
      ((walk bs).rest.length = bs.length → (walk bs).attributes = []) := by
  fun_induction walk bs with
  | case1 bs hnone => exact ⟨Nat.le_refl _, fun _ => rfl⟩
  | case2 bs a rest hsome tail ih =>
    have hless : rest.length < bs.length := length_of_next? hsome
    have hleft : (walk rest).rest.length < bs.length := Nat.lt_of_le_of_lt ih.1 hless
    exact ⟨Nat.le_of_lt hleft, fun hsame => absurd hsame (Nat.ne_of_lt hleft)⟩

/-- Reports that are the same tell of as many bytes. -/
theorem length_of_deficitReport {xs ys : Bytes} (h : deficitReport xs = deficitReport ys) :
    xs.length = ys.length := by
  cases xs with
  | nil =>
    cases ys with
    | nil => rfl
    | cons y ys => cases h
  | cons x xs =>
    cases ys with
    | nil => cases h
    | cons y ys => exact (Event.trailingBytes.inj (List.cons.inj h).1).1

/-- Those that are looked at come first, so none is left behind them only if they are all. -/
theorem drop_lookedAt_eq_nil_iff {bound limit : Nat} {as : List Attribute} :
    as.drop (lookedAt bound limit as).length = [] ↔ lookedAt bound limit as = as := by
  rw [List.drop_eq_nil_iff]
  fun_induction lookedAt bound limit as with
  | case1 as => cases as <;> simp
  | case2 limit => simp
  | case3 limit a as ihtaken ihpassed =>
    split
    · simpa using ihtaken
    · simpa using ihpassed

/-- A collection takes the first of those it may take, and leaves what stands behind those that it has
looked at, whose walk is what remains of the whole one. -/
theorem takeBounded_spec (bound limit : Nat) (data : Bytes) (offset : Nat) :
    let w := walk (data.drop offset)
    let seen := lookedAt bound limit w.attributes
    let result := takeBounded bound limit (data.drop offset)
    result.1 = (w.attributes.filter (·.type.toNat ≤ bound)).take limit ∧
      ∃ stop, Path data offset seen stop ∧ result.2 = data.drop stop ∧
        walk result.2 = ⟨w.attributes.drop seen.length, w.rest⟩ := by
  dsimp only
  generalize hbs : data.drop offset = bs
  fun_induction takeBounded bound limit bs generalizing offset with
  | case1 bs =>
    have hseen : lookedAt bound 0 (walk bs).attributes = [] := lookedAt.eq_1 ..
    rw [hseen]
    exact ⟨rfl, offset, .nil offset, hbs.symm, rfl⟩
  | case2 bs fewer hnone =>
    have hwalk := walk_of_next?_none hnone
    rw [hwalk]
    exact ⟨rfl, offset, .nil offset, hbs.symm, rfl⟩
  | case3 bs fewer a rest hsome hindexed tail ih =>
    obtain rfl := hbs
    obtain ⟨hstands, hrest⟩ := standsAt_of_next? hsome
    obtain ⟨htaken, stop, hpath, hleft, hwalk⟩ := ih _ hrest.symm
    have hseen := lookedAt.eq_3 bound fewer a (walk rest).attributes
    rw [if_pos hindexed] at hseen
    have hwhole := walk_of_next?_some hsome
    rw [hwhole, hseen, List.filter_cons_of_pos (by simpa using hindexed)]
    exact ⟨congrArg (a :: ·) htaken, stop, .cons hstands hpath, hleft, hwalk⟩
  | case4 bs fewer a rest hsome hpassed ih =>
    obtain rfl := hbs
    obtain ⟨hstands, hrest⟩ := standsAt_of_next? hsome
    obtain ⟨htaken, stop, hpath, hleft, hwalk⟩ := ih _ hrest.symm
    have hseen := lookedAt.eq_3 bound fewer a (walk rest).attributes
    rw [if_neg hpassed] at hseen
    rw [walk_of_next?_some hsome, hseen, List.filter_cons_of_neg (by simpa using hpassed)]
    exact ⟨htaken, stop, .cons hstands hpath, hleft, hwalk⟩

/-- **A collection by index reports what it did not look at.** From any bytes and for any `max` it takes
the first `max` attributes of the walk whose type is at most `max`. It looks at those up to the one that
makes up the number, and reports the bytes behind them. This is the report of the bytes that the walk
leaves exactly if there is no attribute, or if fewer than `max` before the last may be taken: that is, if
no attribute stands behind those that were looked at. -/
theorem firstByIndex_report_iff (max : Nat) (bs : Bytes) :
    let w := walk bs
    (firstByIndex max bs).value = (w.attributes.filter (·.type.toNat ≤ max)).take max ∧
      (∃ stop, Path bs 0 (lookedAt max max w.attributes) stop ∧
        (firstByIndex max bs).log = deficitReport (bs.drop stop)) ∧
      ((firstByIndex max bs).log = deficitReport w.rest ↔
        w.attributes = [] ∨ (w.attributes.dropLast.filter (·.type.toNat ≤ max)).length < max) := by
  intro w
  obtain ⟨htaken, stop, hpath, hleft, hwalk⟩ := takeBounded_spec max max bs 0
  simp only [List.drop_zero] at htaken hpath hleft hwalk
  have hlog : (firstByIndex max bs).log = deficitReport (takeBounded max max bs).2 := rfl
  generalize (takeBounded max max bs).2 = left at hleft hwalk hlog
  refine ⟨htaken, ⟨stop, hpath, hleft ▸ hlog⟩, ?_⟩
  rw [hlog, ← lookedAt_eq_iff, ← drop_lookedAt_eq_nil_iff]
  have hrest : (walk left).rest = w.rest := by rw [hwalk]
  have hbehind : (walk left).attributes =
      w.attributes.drop (lookedAt max max w.attributes).length := by rw [hwalk]
  rw [← hrest, ← hbehind]
  constructor
  · intro hsame
    exact (length_rest_walk left).2 (length_of_deficitReport hsame).symm
  · intro hnone
    obtain ⟨stop, hpath, hend, -⟩ := path_walk left 0
    rw [List.drop_zero] at hpath hend
    rw [hnone] at hpath
    cases hpath
    rw [hend, List.drop_zero]

/-- Of two attributes of type one and no payload, the second is reported as trailing. -/
theorem record_behind_reported :
    (walk [4, 0, 1, 0, 4, 0, 1, 0]).deficit = 0 ∧
      (firstByIndex 1 [4, 0, 1, 0, 4, 0, 1, 0]).value = [⟨1, []⟩] ∧
      (firstByIndex 1 [4, 0, 1, 0, 4, 0, 1, 0]).log = [.trailingBytes 4 (some 4)] := by
  decide +kernel

end Netlink.Attribute
