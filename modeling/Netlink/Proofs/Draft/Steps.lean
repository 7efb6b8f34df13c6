import Netlink.Proofs.Draft.Invariant
import Netlink.Proofs.Draft.Nests

/-! # What a step can do

Whether it succeeds or fails, a step adds bytes behind those that are there, opens a nest behind
them, or closes a nest. Closing reaches no further forward than the headers of the nest: what stands
in front of them stays, and after a failure nothing else is left. -/

namespace Netlink.Draft

namespace AnyMark

/-- The headers of the nest stand at `front` or behind it. -/
def Behind (front : Nat) : AnyMark → Prop
  | .plain mark => front ≤ mark.offset
  | .compat mark => front ≤ mark.outer ∧ front ≤ mark.inner.offset

/-- Where the headers of the nest begin. -/
def first : AnyMark → Nat
  | .plain mark => mark.offset
  | .compat mark => mark.outer

theorem Behind.mono {mark : AnyMark} {front front' : Nat} (h : mark.Behind front')
    (hle : front ≤ front') : mark.Behind front := by
  cases mark with
  | plain mark => exact Nat.le_trans hle h
  | compat mark => exact ⟨Nat.le_trans hle h.1, Nat.le_trans hle h.2⟩

end AnyMark

/-! ## Bytes that stay where they are -/

namespace Buffer

variable {b b' : Buffer} {added : Bytes} {offset length : Nat}

/-- What is cut off behind some bytes leaves these bytes. -/
theorem exists_extend_cut (b : Buffer) (added : Bytes) (h : b.bytes.length ≤ offset) :
    ∃ kept, (b.extend added).cut offset = b.extend kept := by
  refine ⟨added.take (offset - b.bytes.length), ?_⟩
  rw [cut, extend, extend, List.take_append, List.take_of_length_le h]

/-- A length that is written behind some bytes leaves these bytes. -/
theorem exists_extend_of_setLength (hbehind : b.bytes.length ≤ offset)
    (h : (b.extend added).setLength offset length = .ok b') : ∃ kept, b' = b.extend kept := by
  unfold setLength at h
  split at h
  · contradiction
  · refine ⟨added.take (offset - b.bytes.length) ++
      (Wire.le16 (UInt16.ofNat length) ++ (b.bytes ++ added).drop (offset + 2)), ?_⟩
    rw [← Except.ok.inj h, extend, extend]
    dsimp only
    rw [List.take_append, List.take_of_length_le hbehind, List.append_assoc, List.append_assoc]

end Buffer

/-! ## Closing a nest of either kind -/

/-- Closes the nest of a mark, of whichever kind it is. -/
def close (d : Draft) : AnyMark → Except Error Product × Draft
  | .plain mark => ((d.closeNest mark).1.map .closed, (d.closeNest mark).2)
  | .compat mark => ((d.closeCompat mark).1.map fun _ => .nothing, (d.closeCompat mark).2)

theorem Work.step_close (w : Work) (number : Option Nat) :
    w.step (.close number) = match w.nests.take? number with
      | none => (.error Tree.Work.noNest, w)
      | some (mark, nests) => ((w.draft.close mark).1, ⟨(w.draft.close mark).2, nests⟩) := by
  unfold step
  dsimp only
  split <;> rename_i htake <;> rw [htake] <;> rfl

theorem close_ne_opened (d : Draft) (mark : AnyMark) (n : Nat) :
    (d.close mark).1 ≠ .ok (.opened n) := by
  cases mark with
  | plain mark =>
    rw [close]
    cases (d.closeNest mark).1 <;> simp [Except.map]
  | compat mark =>
    rw [close]
    cases (d.closeCompat mark).1 <;> simp [Except.map]

/-- Closing a nest leaves what stands in front of its headers. -/
theorem exists_extend_close {d : Draft} {b : Buffer} {added : Bytes} {mark : AnyMark}
    (hbody : d.body = b.extend added) (hbehind : mark.Behind b.bytes.length) :
    ∃ kept, (d.close mark).2.body = b.extend kept := by
  cases mark with
  | plain mark =>
    unfold close closeNest
    dsimp only
    split
    · rename_i b' hb'
      rw [hbody] at hb'
      exact Buffer.exists_extend_of_setLength hbehind hb'
    · rw [hbody]
      exact Buffer.exists_extend_cut b added hbehind
  | compat mark =>
    obtain ⟨houter, hinner⟩ := hbehind
    obtain ⟨b', hclosed, hcases⟩ := closeCompat_cases d mark
    have hbase : ∃ kept, (if d.body.sizeFrom mark.inner.offset = Attribute.headerSize then
        d.body.cut mark.inner.offset else d.body) = b.extend kept := by
      split
      · rw [hbody]
        exact Buffer.exists_extend_cut b added hinner
      · exact ⟨added, hbody⟩
    obtain ⟨kept, hkept⟩ := hbase
    rw [hkept] at hcases
    rw [close, hclosed]
    rcases hcases with ⟨-, rfl⟩ | ⟨-, b₁, hb₁, rfl | ⟨-, length, hb₂⟩⟩
    · exact Buffer.exists_extend_cut b kept houter
    · exact Buffer.exists_extend_of_setLength houter hb₁
    · obtain ⟨kept₁, rfl⟩ := Buffer.exists_extend_of_setLength houter hb₁
      exact Buffer.exists_extend_of_setLength hinner hb₂

/-- If a nest fails to close, nothing is left but what stands in front of its headers. -/
theorem close_of_error {d : Draft} {b : Buffer} {added : Bytes} {mark : AnyMark} {e : Error}
    (hbody : d.body = b.extend added) (hbehind : mark.Behind b.bytes.length)
    (hfirst : mark.first = b.bytes.length) (herror : (d.close mark).1 = .error e) :
    (d.close mark).2.body = b := by
  cases mark with
  | plain mark =>
    dsimp only [AnyMark.first] at hfirst
    unfold close closeNest at herror ⊢
    dsimp only at herror ⊢
    split
    · rename_i b' hb'
      rw [hb'] at herror
      cases herror
    · rw [hbody, hfirst]
      exact b.cut_extend added
  | compat mark =>
    obtain ⟨houter, hinner⟩ := hbehind
    dsimp only [AnyMark.first] at hfirst
    obtain ⟨b', hclosed, hcases⟩ := closeCompat_cases d mark
    rcases hcases with ⟨-, rfl⟩ | ⟨hok, -⟩
    · rw [close, hclosed, hfirst]
      split
      · obtain ⟨kept, hkept⟩ := Buffer.exists_extend_cut b added hinner
        rw [hbody, hkept]
        exact b.cut_extend kept
      · rw [hbody]
        exact b.cut_extend added
    · rw [close, hok] at herror
      cases herror

/-! ## What a step can do -/

namespace Work

/-- The number of the nest that a step is about to close. -/
def closes? (w : Work) : Step → Option Nat
  | .close number => w.nests.meant? number
  | _ => none

/-- What comes of a step: something is added to the body, or nothing; a nest is opened; or one is
closed, with or without success. -/
inductive Turn (w : Work) (s : Step) : Except Error Product × Work → Prop
  | wrote {outcome : Except Error Product} {w' : Work} (added : Bytes)
      (outcome_ne : ∀ n, outcome ≠ .ok (.opened n))
      (body : w'.draft.body = w.draft.body.extend added) (nests : w'.nests = w.nests) :
      Turn w s (outcome, w')
  | opened {w' : Work} (added : Bytes) (mark : AnyMark)
      (body : w'.draft.body = w.draft.body.extend added)
      (nests : w'.nests = w.nests ++ [(mark, false)])
      (first : mark.first = w.draft.body.front) (behind : mark.Behind w.draft.body.front)
      (inside : mark.Inside w'.draft.body) :
      Turn w s (.ok (.opened w.nests.length), w')
  | closed {w' : Work} (k : Nat) (mark : AnyMark) (before : Bool)
      (closes : w.closes? s = some k) (nest : w.nests[k]? = some (mark, before))
      (draft : w'.draft = (w.draft.close mark).2) (nests : w'.nests = w.nests.set k (mark, true)) :
      Turn w s ((w.draft.close mark).1, w')

theorem error_ne_opened (e : Error) (n : Nat) : Except.error e ≠ .ok (Product.opened n) := by simp

theorem nothing_ne_opened (n : Nat) :
    (Except.ok Product.nothing : Except Error Product) ≠ .ok (.opened n) := by simp

theorem turn_settled {w : Work} {s : Step} {x : Except Error Draft}
    (hx : ∀ d, x = .ok d → ∃ added, d = w.draft.extend added) : Turn w s (w.settled x) := by
  have hsame : w.draft.body = w.draft.body.extend [] := by
    rw [Buffer.extend, List.append_nil]
  cases x with
  | error e => exact .wrote [] (error_ne_opened _) hsame rfl
  | ok d =>
    obtain ⟨added, rfl⟩ := hx d rfl
    exact .wrote added nothing_ne_opened rfl rfl

theorem turn (w : Work) (s : Step) : Turn w s (w.step s) := by
  have hsame : w.draft.body = w.draft.body.extend [] := by
    rw [Buffer.extend, List.append_nil]
  cases s with
  | appendRaw data =>
    rw [step_appendRaw]
    exact turn_settled fun d hd => exists_extend_of_addRaw hd
  | append a =>
    rw [step_append]
    exact turn_settled fun d hd => exists_extend_of_add hd
  | appendTree type capacity steps =>
    rw [step_appendTree]
    refine turn_settled fun d hd => ?_
    obtain ⟨tree, _, hraw⟩ := bind_eq_ok.mp hd
    exact exists_extend_of_addRaw hraw
  | openNest type =>
    rw [step_openNest]
    split
    · rename_i mark draft hopen
      have hlength := length_of_addNest hopen
      obtain ⟨rfl, added, rfl⟩ := exists_extend_of_addNest hopen
      exact .opened added (.plain ⟨w.draft.body.front⟩) rfl rfl rfl (Nat.le_refl _)
        (Nat.le_of_eq hlength.symm)
    · exact .wrote [] (error_ne_opened _) hsame rfl
  | openCompat type data =>
    rw [step_openCompat]
    split
    · rename_i mark draft hopen
      obtain ⟨outer, houter, hinner, hfront⟩ := openCompat_eq_ok_iff.mp hopen
      have hlength := length_of_add houter
      have hend := length_of_addNest hinner
      obtain ⟨added, hadded⟩ := exists_extend_of_add houter
      obtain ⟨hmark, more, rfl⟩ := exists_extend_of_addNest hinner
      have hrecord : Attribute.headerSize ≤ Wire.align4 (Attribute.recordSize ⟨type, data⟩) :=
        Nat.le_trans (Nat.le_add_right ..) (Wire.le_align4 _)
      have hfronts : outer.body.bytes.length ≤ outer.body.front := Wire.le_align4 _
      have hoffset : mark.inner.offset = outer.body.front := congrArg Mark.offset hmark
      have hbody : (outer.extend more).body = w.draft.body.extend (added ++ more) := by
        rw [hadded, extend_extend]
        rfl
      have hinside : (AnyMark.compat mark).Inside (outer.extend more).body := by
        simp only [AnyMark.Inside]
        omega
      exact .opened _ (.compat mark) hbody rfl hfront ⟨by omega, by omega⟩ hinside
    · exact .wrote [] (error_ne_opened _) hsame rfl
  | close number =>
    rw [step_close]
    split
    · exact .wrote [] (error_ne_opened _) hsame rfl
    · rename_i mark nests htake
      obtain ⟨k, before, hk, hnest, rfl⟩ := Nests.take?_eq_some htake
      exact .closed k mark before hk hnest rfl rfl
  | setFlags flags => exact .wrote [] nothing_ne_opened hsame rfl
  | setSeq seq => exact .wrote [] nothing_ne_opened hsame rfl
  | setPid pid => exact .wrote [] nothing_ne_opened hsame rfl
  | refuse reason => exact .wrote [] (error_ne_opened _) hsame rfl

/-- Nests are never taken away and never stand elsewhere. -/
theorem mark_step {w : Work} {k : Nat} {mark : AnyMark} (s : Step)
    (h : w.nests[k]?.map (·.1) = some mark) : (w.step s).2.nests[k]?.map (·.1) = some mark := by
  cases hturn : w.step s with
  | mk outcome w' =>
    have hk : k < w.nests.length := by
      obtain ⟨nest, hnest, -⟩ := Option.map_eq_some_iff.mp h
      exact (List.getElem?_eq_some_iff.mp hnest).1
    cases hturn ▸ w.turn s with
    | wrote _ _ _ nests => rw [nests, h]
    | opened _ _ _ nests => rw [nests, List.getElem?_append_left hk, h]
    | closed j _ _ _ nest _ nests =>
      rw [nests]
      by_cases hj : j = k
      · subst hj
        rw [List.getElem?_set_self hk, ← h, nest]
        rfl
      · rw [List.getElem?_set_ne hj, h]

theorem length_nests_step (w : Work) (s : Step) : w.nests.length ≤ (w.step s).2.nests.length := by
  cases hturn : w.step s with
  | mk outcome w' =>
    cases hturn ▸ w.turn s with
    | wrote _ _ _ nests => exact Nat.le_of_eq (congrArg List.length nests).symm
    | opened _ _ _ nests =>
      rw [nests, List.length_append]
      exact Nat.le_add_right ..
    | closed _ _ _ _ _ _ nests =>
      exact Nat.le_of_eq ((congrArg List.length nests).trans List.length_set).symm

theorem mark_run {w : Work} {k : Nat} {mark : AnyMark} (steps : List Step)
    (h : w.nests[k]?.map (·.1) = some mark) : (w.run steps).nests[k]?.map (·.1) = some mark := by
  induction steps generalizing w with
  | nil => exact h
  | cons s steps ih => exact ih (mark_step s h)

end Work

end Netlink.Draft
