import Netlink.Socket.Basic

/-! # What calls leave behind

A call that fails uses up the failure, and one that looks leaves what it looked at; so apart from the
failures that are still to come, only a read that succeeds changes what waits to be read. -/

namespace Netlink

namespace Host

/-- The datagram without the failures that come before it can be read. -/
def Waiting.calm (w : Waiting) : Waiting := { w with sizeFaults := [], readFaults := [] }

/-- What a read with this much room brings of the datagram. -/
def Waiting.brought (w : Waiting) (room : Nat) : Received :=
  ⟨w.data.take room, w.sender, fitting controlRoom w.control, w.truncated || room < w.data.length⟩

/-- The datagrams that wait, without their failures. -/
def waiting (h : Host) : List Waiting := h.queue.map Waiting.calm

/-- All failures that are still to come. -/
def faults (h : Host) : Faults :=
  h.sendFaults ++ h.queue.flatMap fun w => w.sizeFaults ++ w.readFaults

/-- The socket is known to be readable, or there is news of it. -/
def Alert (h : Host) : Prop := h.readiness.readable ∨ h.readiness.news

/-- These calls have been made, and so many datagrams taken off the queue. -/
structure Later (made : List Call) (taken : Nat) (h h' : Host) : Prop where
  calls : h'.calls = h.calls ++ made
  waiting : h'.waiting = h.waiting.drop taken
  faults : h'.faults ⊆ h.faults
  alert : h.Alert → h'.Alert

namespace Later

variable {made made' : List Call} {taken taken' n : Nat} {h h₁ h' : Host}

theorem refl (h : Host) : Later [] 0 h h :=
  ⟨(List.append_nil _).symm, rfl, List.Subset.refl _, id⟩

theorem trans (hfirst : Later made taken h h₁) (hrest : Later made' taken' h₁ h') :
    Later (made ++ made') (taken + taken') h h' where
  calls := by rw [hrest.calls, hfirst.calls, List.append_assoc]
  waiting := by rw [hrest.waiting, hfirst.waiting, List.drop_drop]
  faults := List.Subset.trans hrest.faults hfirst.faults
  alert := hrest.alert ∘ hfirst.alert

theorem record (hlater : Later [] taken h h') (c : Call) : Later [c] taken h (h'.record c) :=
  { hlater with calls := by rw [Host.record, hlater.calls, List.append_nil] }

theorem stirred (hlater : Later made taken h h') (n : Nat) : Later made taken h (h'.stirred n) :=
  { hlater with
    alert := fun halert => (hlater.alert halert).imp id fun hnews => by simp [Host.stirred, hnews] }

end Later

variable {h h' : Host} {w : Waiting} {rest : List Waiting} {c : Call} {n : Nat}

theorem waiting_cons (hq : h.queue = w :: rest) : h.waiting = w.calm :: rest.map Waiting.calm := by
  rw [waiting, hq, List.map_cons]

namespace Waiting

theorem calm_spend (w : Waiting) (wanted : Wanted) : (w.spend wanted).calm = w.calm := by
  cases wanted <;> rfl

theorem faults_spend (w : Waiting) (wanted : Wanted) :
    (w.spend wanted).faults wanted = (w.faults wanted).tail := by
  cases wanted <;> rfl

theorem faults_spend_of_ne {w : Waiting} {wanted other : Wanted} (h : other ≠ wanted) :
    (w.spend wanted).faults other = w.faults other := by
  cases wanted <;> cases other <;> first
    | rfl
    | exact absurd rfl h

end Waiting

theorem mem_faults (hq : h.queue = w :: rest) {f : Option Nat} {wanted : Wanted}
    (hf : f ∈ w.faults wanted) : f ∈ h.faults := by
  simp only [faults, hq, List.flatMap_cons, List.mem_append]
  cases wanted with
  | size => exact .inr (.inl (.inl hf))
  | contents => exact .inr (.inl (.inr hf))

theorem Faults.mem_of_next? {fs : Faults} (h : fs.next? = some n) : some n ∈ fs := by
  cases fs with
  | nil => cases h
  | cons f fs =>
    obtain rfl : f = some n := h
    exact List.mem_cons_self ..

theorem Faults.tail_subset (fs : Faults) : fs.tail ⊆ fs := (List.tail_sublist fs).subset

/-- Failures of sends have been used up. -/
theorem later_sendFaults (h : Host) : Later [] 0 h { h with sendFaults := h.sendFaults.tail } where
  calls := (List.append_nil _).symm
  waiting := rfl
  faults := List.append_subset.mpr
    ⟨fun _ hf => List.mem_append_left _ (h.sendFaults.tail_subset hf), List.subset_append_right ..⟩
  alert := id

/-- Failures of the first datagram have been used up. -/
theorem later_queue (hq : h.queue = w :: rest) {w' : Waiting} (hcalm : w'.calm = w.calm)
    (hsize : w'.sizeFaults ⊆ w.sizeFaults) (hread : w'.readFaults ⊆ w.readFaults) :
    Later [] 0 h { h with queue := w' :: rest } where
  calls := (List.append_nil _).symm
  waiting := by simp [waiting, hq, hcalm]
  faults := by
    intro f hf
    simp only [faults, hq, List.flatMap_cons, List.mem_append] at hf ⊢
    exact hf.imp_right (Or.imp_left (Or.imp (hsize ·) (hread ·)))
  alert := id

theorem later_spend (hq : h.queue = w :: rest) (wanted : Wanted) :
    Later [] 0 h { h with queue := w.spend wanted :: rest } := by
  cases wanted with
  | size => exact later_queue hq rfl (Faults.tail_subset _) (List.Subset.refl _)
  | contents => exact later_queue hq rfl (List.Subset.refl _) (Faults.tail_subset _)

/-- The first datagram has been taken. -/
theorem later_taken (hq : h.queue = w :: rest) : Later [] 1 h { h with queue := rest } where
  calls := (List.append_nil _).symm
  waiting := by simp [waiting, hq]
  faults := by
    intro f hf
    simp only [faults, hq, List.flatMap_cons, List.mem_append] at hf ⊢
    exact hf.imp_right .inr
  alert := id

/-- Only what is known of the readiness has changed. -/
theorem later_readiness {known : Readiness} (halert : h.Alert → known.readable ∨ known.news) :
    Later [] 0 h { h with readiness := known } where
  calls := (List.append_nil _).symm
  waiting := rfl
  faults := List.Subset.refl _
  alert := halert

/-- A call has failed with this number. If it would have had to wait although there is something to
be read, then that is news. -/
structure Failed (c : Call) (n : Nat) (h h' : Host) : Prop where
  later : Later [c] 0 h h'
  fault : n = Errno.wouldBlock ∨ some n ∈ h.faults
  news {v : Waiting} {ws : List Waiting} : h.waiting = v :: ws → v.silent = false →
    n = Errno.wouldBlock → h'.readiness.news = true

namespace Failed

theorem of_empty (hq : h.queue = []) (c : Call) : Failed c Errno.wouldBlock h (h.record c) where
  later := (Later.refl h).record c
  fault := .inl rfl
  news hw := by
    rw [waiting, hq] at hw
    cases hw

theorem of_silent (hq : h.queue = w :: rest) (hsilent : w.silent = true) (c : Call) :
    Failed c Errno.wouldBlock h (h.record c) where
  later := (Later.refl h).record c
  fault := .inl rfl
  news hw hloud := by
    rw [waiting_cons hq, List.cons.injEq] at hw
    rw [← hw.1, Waiting.calm, hsilent] at hloud
    cases hloud

theorem of_fault (hlater : Later [] 0 h h') (hf : some n ∈ h.faults) (c : Call) :
    Failed c n h ((h'.stirred n).record c) where
  later := (hlater.stirred n).record c
  fault := .inr hf
  news _ _ hn := by simp [stirred, record, hn]

end Failed

/-! ## The calls of a socket -/

section Socket

variable {pieces : List Bytes} {wanted : Wanted} {room flags : Nat} {α : Type}
  {see : Option Waiting → α} {count : α → Nat}

theorem failed_of_send (hcall : h.send pieces = (.error n, h')) :
    Failed (.send pieces netlinkFamily 0 0 (-n)) n h h' := by
  unfold send at hcall
  dsimp only at hcall
  split at hcall
  · rename_i hf
    cases hcall
    exact .of_fault (later_sendFaults h) (List.mem_append_left _ (Faults.mem_of_next? hf)) _
  · cases hcall

theorem later_of_send (hcall : h.send pieces = (.ok (), h')) :
    Later [.send pieces netlinkFamily 0 0 pieces.flatten.length] 0 h h' := by
  unfold send at hcall
  dsimp only at hcall
  split at hcall
  · cases hcall
  · cases hcall
    exact (later_sendFaults h).record _

theorem look_of_empty (hq : h.queue = []) :
    h.look wanted room flags see count =
      if isNoWait flags then
        (.error Errno.wouldBlock, h.record (.read room flags (-Errno.wouldBlock)))
      else (.ok (see none), h.record (.read room flags (count (see none)))) := by
  rw [look, hq]

/-- A look at a datagram that can be read fails as it is its turn to, or sees it. -/
theorem look_of_loud (hq : h.queue = w :: rest) (hloud : w.silent = false) :
    h.look wanted room flags see count =
      let later := { h with queue := w.spend wanted :: rest }
      match (w.faults wanted).next? with
      | some n => (.error n, (later.stirred n).record (.read room flags (-n)))
      | none =>
        (.ok (see (some w)), later.record (.read room flags (count (see (some w))))) := by
  rw [look, hq]
  dsimp only
  rw [hloud]
  rfl

theorem failed_of_look (hcall : h.look wanted room flags see count = (.error n, h')) :
    Failed (.read room flags (-n)) n h h' := by
  unfold look at hcall
  dsimp only at hcall
  split at hcall
  · rename_i hq
    split at hcall <;> cases hcall
    exact .of_empty hq _
  · rename_i w rest hq
    split at hcall
    · rename_i hsilent
      cases hcall
      exact .of_silent hq hsilent _
    · split at hcall
      · rename_i hf
        cases hcall
        exact .of_fault (later_spend hq wanted) (mem_faults hq (Faults.mem_of_next? hf)) _
      · cases hcall

/-- Without anything to be read, only a call that may wait sees that. -/
theorem later_of_look {a : α} (hsee : ∀ w : Waiting, see (some w.calm) = see (some w))
    (hcall : h.look wanted room flags see count = (.ok a, h')) :
    Later [.read room flags (count a)] 0 h h' ∧
      (h.waiting = [] ∧ isNoWait flags = false ∨
        ∃ v ws, h.waiting = v :: ws ∧ a = see (some v)) := by
  unfold look at hcall
  dsimp only at hcall
  split at hcall
  · rename_i hq
    split at hcall <;> cases hcall
    rename_i hwait
    exact ⟨(Later.refl h).record _, .inl ⟨by rw [waiting, hq]; rfl, by simpa using hwait⟩⟩
  · rename_i w rest hq
    split at hcall
    · cases hcall
    · split at hcall
      · cases hcall
      · cases hcall
        refine ⟨?_, .inr ⟨_, _, waiting_cons hq, (hsee w).symm⟩⟩
        exact (later_spend hq wanted).record _

theorem failed_of_size (hcall : h.size flags = (.error n, h')) :
    Failed (.read 0 flags (-n)) n h h' := failed_of_look hcall

theorem later_of_size {size : Nat} (hcall : h.size flags = (.ok size, h')) :
    Later [.read 0 flags size] 0 h h' ∧
      (h.waiting = [] ∧ isNoWait flags = false ∨ ∃ v ws, h.waiting = v :: ws ∧ size = v.told) :=
  later_of_look (fun _ => rfl) hcall

theorem failed_of_copy (hcall : h.copy room flags = (.error n, h')) :
    Failed (.read room flags (-n)) n h h' := failed_of_look hcall

theorem later_of_copy {data : Bytes} (hcall : h.copy room flags = (.ok data, h')) :
    Later [.read room flags data.length] 0 h h' ∧
      (h.waiting = [] ∧ isNoWait flags = false ∨
        ∃ v ws, h.waiting = v :: ws ∧ data = v.data.take room) :=
  later_of_look (fun _ => rfl) hcall

theorem failed_of_read (hcall : h.read room = (.error n, h')) :
    Failed (.readMessage room controlRoom 0 (-n)) n h h' := by
  unfold read at hcall
  dsimp only at hcall
  split at hcall
  · cases hcall
  · rename_i w rest hq
    split at hcall
    · rename_i hsilent
      cases hcall
      exact .of_silent hq hsilent _
    · split at hcall
      · rename_i hf
        cases hcall
        exact .of_fault (later_spend hq .contents) (mem_faults hq (Faults.mem_of_next? hf)) _
      · cases hcall

/-- A read that succeeds takes the first datagram and brings it. -/
theorem later_of_read {r : Received} {v : Waiting} {ws : List Waiting} (hw : h.waiting = v :: ws)
    (hcall : h.read room = (.ok r, h')) :
    Later [.readMessage room controlRoom 0 r.data.length] 1 h h' ∧ r = v.brought room := by
  unfold read at hcall
  dsimp only at hcall
  split at hcall
  · rename_i hq
    rw [waiting, hq] at hw
    cases hw
  · rename_i w rest hq
    rw [waiting_cons hq, List.cons.injEq] at hw
    split at hcall
    · cases hcall
    · split at hcall
      · cases hcall
      · cases hcall
        exact ⟨(later_taken hq).record _, hw.1 ▸ rfl⟩

end Socket
end Host

namespace Socket

open Host

theorem Retried.run_of_ok {α : Type} {r : Retried α} {a : α} {h h' : Host}
    (hcall : r.call h = (.ok a, h')) : r.run h = (.ok a, h') := by
  rw [run]
  split
  · rename_i hcall'
    exact hcall'.symm.trans hcall
  · rename_i hcall'
    cases hcall'.symm.trans hcall

theorem Retried.run_of_error {α : Type} {r : Retried α} {n : Nat} {h h' : Host}
    (hcall : r.call h = (.error n, h')) (hn : r.excuses n = false) : r.run h = (.error n, h') := by
  rw [run]
  split
  · rename_i hcall'
    cases hcall'.symm.trans hcall
  · rename_i hcall'
    cases hcall'.symm.trans hcall
    rw [dif_neg (by simp [hn])]

/-- The outcome of a call that is made again when it is interrupted is that of the last one, made
behind calls that were interrupted. -/
theorem Retried.exists_last {α : Type} (r : Retried α) {fails : Nat → Call}
    (hfails : ∀ {n : Nat} {h h' : Host}, r.call h = (.error n, h') → Failed (fails n) n h h')
    (hexcuses : r.excuses = interrupted) (h : Host) :
    ∃ times h₁, Later (List.replicate times (fails Errno.interrupted)) 0 h h₁ ∧
      r.run h = r.call h₁ ∧ ∀ {n h'}, r.run h = (.error n, h') → n ≠ Errno.interrupted := by
  fun_induction Retried.run r h with
  | case1 h a h' hcall =>
    refine ⟨0, h, Later.refl h, hcall.symm, ?_⟩
    rintro n h' ⟨⟩
  | case2 h n h' hcall hexcused ih =>
    obtain ⟨times, h₁, hlater, hrun, hlast⟩ := ih
    rw [hexcuses] at hexcused
    obtain rfl : n = Errno.interrupted := of_decide_eq_true hexcused
    exact ⟨times + 1, h₁, Nat.zero_add 0 ▸ (hfails hcall).later.trans hlater, hrun, hlast⟩
  | case3 h n h' hcall hexcused =>
    refine ⟨0, h, Later.refl h, hcall.symm, ?_⟩
    rintro n h' ⟨⟩ rfl
    rw [hexcuses] at hexcused
    exact hexcused (decide_eq_true rfl)

/-- A look that is only ever interrupted sees the first datagram in the end, and leaves it as it is for
looks of another kind. -/
theorem Retried.run_of_loud {α : Type} {r : Retried α} {wanted : Wanted} {room flags : Nat}
    {see : Option Waiting → α} {count : α → Nat} {h : Host} {w : Waiting} {rest : List Waiting}
    (hcall : r.call = Host.look wanted room flags see count) (hexcuses : r.excuses = interrupted)
    (hsee : ∀ v : Waiting, see (some v.calm) = see (some v)) (hq : h.queue = w :: rest)
    (hloud : w.silent = false) (honly : ∀ n, some n ∈ w.faults wanted → n = Errno.interrupted) :
    ∃ h' w', r.run h = (.ok (see (some w)), h') ∧ h'.queue = w' :: rest ∧ w'.calm = w.calm ∧
      ∀ other, other ≠ wanted → w'.faults other = w.faults other := by
  fun_induction Retried.run r h generalizing w with
  | case1 h a h' hrun =>
    rw [hcall, look_of_loud hq hloud] at hrun
    dsimp only at hrun
    split at hrun
    · cases hrun
    · cases hrun
      exact ⟨_, _, rfl, rfl, w.calm_spend wanted, fun _ => Waiting.faults_spend_of_ne⟩
  | case2 h n h' hrun hexcused ih =>
    rw [hcall, look_of_loud hq hloud] at hrun
    dsimp only at hrun
    split at hrun
    · cases hrun
      have hcalm := w.calm_spend wanted
      obtain ⟨h', w', hok, hqueue, hkept, hothers⟩ := ih rfl
        ((congrArg Waiting.silent hcalm).trans hloud) fun n hn =>
          honly n (Faults.tail_subset _ (w.faults_spend wanted ▸ hn))
      have hsame : see (some (w.spend wanted)) = see (some w) := by
        rw [← hsee, hcalm, hsee]
      exact ⟨h', w', hsame ▸ hok, hqueue, hkept.trans hcalm, fun other hother =>
        (hothers other hother).trans (Waiting.faults_spend_of_ne hother)⟩
    · cases hrun
  | case3 h n h' hrun hexcused =>
    rw [hcall, look_of_loud hq hloud] at hrun
    dsimp only at hrun
    split at hrun
    · rename_i hfault
      cases hrun
      obtain rfl := honly _ (Faults.mem_of_next? hfault)
      rw [hexcuses] at hexcused
      exact absurd (decide_eq_true rfl) hexcused
    · cases hrun

end Socket
end Netlink
