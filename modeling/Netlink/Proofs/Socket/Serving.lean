import Netlink.Proofs.Socket.Calls

/-! # What a socket is used for

Between a call that is interrupted, a call that would have to wait and the waiting itself, a socket
does what it is asked to do once. A datagram is received by one read that succeeds, and a message is
sent by one send that does; the failures that were passed over leave no trace but their calls. -/

namespace Netlink

namespace Socket

open Host

/-- What a receive gives out of what a read brought. Nothing means that the other side is gone. -/
def givenOut (r : Received) : Except Error Datagram :=
  if r.data.isEmpty then .error .endOfFile
  else .ok ⟨r.data, r.sender, r.truncated, lastNamespace r.control⟩

/-- What a socket is asked to do. -/
inductive Use where
  | send (pieces : List Bytes)
  | receive (patience : Option Nat)
  | peek

/-- What comes of it. -/
inductive Answer where
  | sent (outcome : Except Error Unit)
  | received (outcome : Except Error Datagram)
  | seen (outcome : Except Error (Option Bytes))

/-- The answer is to a send or to a receive. -/
def Answer.isDone : Answer → Bool
  | sent _ | received _ => true
  | seen _ => false

namespace Use

def serve : Use → Socket → Answer × Socket
  | send pieces, s => let (outcome, s) := s.send pieces; (.sent outcome, s)
  | receive patience, s => let (outcome, s) := s.receive patience; (.received outcome, s)
  | peek, s => let (outcome, s) := s.peek; (.seen outcome, s)

/-- The answer when the use fails. -/
def failure (e : Error) : Use → Answer
  | send _ => .sent (.error e)
  | receive _ => .received (.error e)
  | peek => .seen (.error e)

/-- The number of a failure that the use passes over: the call was interrupted, or it would have had
to wait and the use does. -/
def PassesOver : Use → Nat → Prop
  | peek, n => n = Errno.interrupted
  | _, n => n = Errno.interrupted ∨ n = Errno.wouldBlock

/-- A call that the use makes and that failed with this number. -/
inductive Fails : Use → Nat → Call → Prop
  | sending (pieces : List Bytes) (n : Nat) :
      Fails (send pieces) n (.send pieces netlinkFamily 0 0 (-n))
  | sizing (patience : Option Nat) (n : Nat) :
      Fails (receive patience) n (.read 0 (peekFlag ||| sizeFlag) (-n))
  | reading (patience : Option Nat) (room n : Nat) :
      Fails (receive patience) n (.readMessage room controlRoom 0 (-n))
  | looking (room flags n : Nat) : Fails peek n (.read room flags (-n))

/-- A call that the use makes on the way: it failed and was passed over, or it told a size. -/
inductive Vain : Use → Call → Prop
  | failed {use : Use} {n : Nat} {c : Call} (passed : use.PassesOver n) (fails : use.Fails n c) :
      Vain use c
  | sized (patience : Option Nat) (size : Nat) :
      Vain (receive patience) (.read 0 (peekFlag ||| sizeFlag) size)
  | sizedAhead (size : Nat) : Vain peek (.read 0 (noWaitFlag ||| peekFlag ||| sizeFlag) size)

/-- What the last call of a use comes to, while these datagrams wait and calls may fail with these
numbers: the answer, and the datagrams that still wait. -/
inductive Decides (faults : Faults) : Use → List Waiting → Call → Answer → List Waiting → Prop
  | sent (ws : List Waiting) (pieces : List Bytes) :
      Decides faults (send pieces) ws (.send pieces netlinkFamily 0 0 pieces.flatten.length)
        (.sent (.ok ())) ws
  | received (w : Waiting) (ws : List Waiting) (patience : Option Nat) :
      Decides faults (receive patience) (w :: ws)
        (.readMessage w.told controlRoom 0 (w.data.take w.told).length)
        (.received (givenOut (w.brought w.told))) ws
  | seen (w : Waiting) (ws : List Waiting) :
      Decides faults peek (w :: ws)
        (.read w.told (peekFlag ||| noWaitFlag) (w.data.take w.told).length)
        (.seen (.ok (some (w.data.take w.told)))) (w :: ws)
  | unseen {c : Call} (ws : List Waiting) (fails : peek.Fails Errno.wouldBlock c) :
      Decides faults peek ws c (.seen (.ok none)) ws
  | refused {use : Use} {n : Nat} {c : Call} (ws : List Waiting) (fails : use.Fails n c)
      (may : some n ∈ faults) (uninterrupted : n ≠ Errno.interrupted)
      (unblocked : n ≠ Errno.wouldBlock) :
      Decides faults use ws c (use.failure (.io (.os n))) ws

/-- What comes of a use: the calls that it makes, the answer, and the datagrams that still wait. The
last call decides, and those before it were made in vain. -/
def Serves (faults : Faults) (use : Use) (ws : List Waiting) (calls : List Call) (answer : Answer)
    (ws' : List Waiting) : Prop :=
  ∃ tries last, calls = tries ++ [last] ∧ (∀ c ∈ tries, use.Vain c) ∧
    use.Decides faults ws last answer ws'

theorem Decides.mono {faults faults' : Faults} {use : Use} {ws ws' : List Waiting} {c : Call}
    {answer : Answer} (hsub : faults ⊆ faults') (h : use.Decides faults ws c answer ws') :
    use.Decides faults' ws c answer ws' := by
  cases h with
  | sent => exact .sent ..
  | received => exact .received ..
  | seen => exact .seen ..
  | unseen _ fails => exact .unseen _ fails
  | refused _ fails may uninterrupted unblocked =>
    exact .refused _ fails (hsub may) uninterrupted unblocked

theorem passesOver_interrupted (use : Use) : use.PassesOver Errno.interrupted := by
  cases use with
  | peek => rfl
  | send | receive => exact .inl rfl

end Use

open Netlink.Socket.Use (Fails Vain Serves)

variable {h h' h₁ : Host} {use : Use} {n : Nat}

/-- A use of a socket, by what it does on the host. -/
structure Served (use : Use) (answer : Answer) (h h' : Host) : Prop where
  alert : h.Alert → h'.Alert
  faults : h'.faults ⊆ h.faults
  serves : ∃ made, h'.calls = h.calls ++ made ∧
    use.Serves h.faults h.waiting made answer h'.waiting

/-- Calls made in vain before a use do not change what comes of it. -/
theorem Served.behind {answer : Answer} {tries : List Call} (hlater : Later tries 0 h h₁)
    (hvain : ∀ c ∈ tries, use.Vain c) (hserved : Served use answer h₁ h') :
    Served use answer h h' where
  alert := hserved.alert ∘ hlater.alert
  faults := List.Subset.trans hserved.faults hlater.faults
  serves := by
    obtain ⟨_, hcalls, more, last, rfl, hmore, hdecides⟩ := hserved.serves
    have hwaiting : h₁.waiting = h.waiting := hlater.waiting
    refine ⟨tries ++ (more ++ [last]), ?_, tries ++ more, last, (List.append_assoc ..).symm,
      List.forall_mem_append.mpr ⟨hvain, hmore⟩, ?_⟩
    · rw [hcalls, hlater.calls, List.append_assoc]
    · rw [← hwaiting]
      exact hdecides.mono hlater.faults

/-- One last call decides. -/
theorem Served.of_last {answer : Answer} {last : Call} {taken : Nat}
    (hlater : Later [last] taken h h')
    (hdecides : use.Decides h.faults h.waiting last answer (h.waiting.drop taken)) :
    Served use answer h h' where
  alert := hlater.alert
  faults := hlater.faults
  serves := ⟨[last], hlater.calls, [], last, rfl, List.forall_mem_nil _, hlater.waiting ▸ hdecides⟩

theorem Served.of_failed {c : Call} (hfailed : Failed c n h h') (hfails : use.Fails n c)
    (hinterrupted : n ≠ Errno.interrupted) (hblocked : n ≠ Errno.wouldBlock) :
    Served use (use.failure (.io (.os n))) h h' :=
  .of_last hfailed.later (.refused _ hfails (hfailed.fault.resolve_left hblocked) hinterrupted
    hblocked)

/-- The outcome of a call that a use makes, again when it is interrupted, is that of the last one;
those before it were made in vain. -/
theorem exists_last {α : Type} (r : Retried α) {fails : Nat → Call}
    (hfails : ∀ {n : Nat} {h h' : Host}, r.call h = (.error n, h') → Failed (fails n) n h h')
    (hexcuses : r.excuses = interrupted) (huse : ∀ n, use.Fails n (fails n)) (h : Host) :
    ∃ tries h₁, Later tries 0 h h₁ ∧ (∀ c ∈ tries, use.Vain c) ∧ r.run h = r.call h₁ ∧
      ∀ {n h'}, r.run h = (.error n, h') → n ≠ Errno.interrupted := by
  obtain ⟨times, h₁, hlater, hrun, hlast⟩ := r.exists_last hfails hexcuses h
  refine ⟨_, h₁, hlater, fun c hc => ?_, hrun, hlast⟩
  rw [(List.mem_replicate.mp hc).2]
  exact .failed use.passesOver_interrupted (huse _)

/-! ## Sending -/

theorem later_whenWritable (h : Host) : Later [] 0 h (whenWritable h) := by
  unfold whenWritable
  split
  · exact Later.refl h
  · exact later_readiness fun _ => .inl rfl

theorem served_sendRaw (pieces : List Bytes) (h : Host) :
    Served (.send pieces) (.sent (sendRaw pieces h).1) h (sendRaw pieces h).2 := by
  have hlast (h : Host) := exists_last (sending pieces) failed_of_send rfl (.sending pieces)
    (whenWritable h)
  fun_induction sendRaw pieces h with
  | case1 h h' hrun =>
    obtain ⟨tries, h₁, hlater, hvain, heq, -⟩ := hlast h
    have hsent := later_of_send (heq.symm.trans hrun)
    exact .behind ((later_whenWritable h).trans hlater) hvain (.of_last hsent (.sent ..))
  | case2 h h' hrun ih =>
    obtain ⟨tries, h₁, hlater, hvain, heq, -⟩ := hlast h
    have hfailed := failed_of_send (heq.symm.trans hrun)
    have hunready : Later [] 0 h' { h' with readiness.writable := false } := later_readiness id
    refine .behind ((later_whenWritable h).trans hlater) hvain
      (.behind (hfailed.later.trans hunready) ?_ ih)
    exact List.forall_mem_singleton.mpr (.failed (.inr rfl) (.sending ..))
  | case3 h n h' hrun hblocked =>
    obtain ⟨tries, h₁, hlater, hvain, heq, huninterrupted⟩ := hlast h
    have hfailed := failed_of_send (heq.symm.trans hrun)
    exact .behind ((later_whenWritable h).trans hlater) hvain
      (.of_failed hfailed (.sending ..) (huninterrupted hrun) hblocked)

/-! ## Receiving -/

variable {patience : Option Nat} {w : Waiting} {ws : List Waiting}

theorem later_of_whenReadable (hready : whenReadable patience h = some h₁) : Later [] 0 h h₁ := by
  unfold whenReadable at hready
  split at hready
  · cases hready
    exact Later.refl h
  · split at hready
    · cases hready
    · obtain ⟨known, hknown, rfl⟩ := Option.map_eq_some_iff.mp hready
      obtain ⟨-, ⟨⟩⟩ := Option.ite_none_right_eq_some.mp hknown
      exact later_readiness fun _ => .inl rfl

/-- A wait with some time ends if there is news. -/
theorem whenReadable_ne_none (hpatience : patience ≠ some 0) (halert : h.Alert) :
    whenReadable patience h ≠ none := by
  by_cases hready : h.readiness.readable
  · simp [whenReadable, hready]
  · have hnews : h.readiness.news = true := halert.resolve_left hready
    simp [whenReadable, hready, hpatience, Readiness.await, hnews]

/-- Behind calls in vain, an attempt reads the first datagram into as much room as was told, or its
last call fails. -/
theorem attempt_cases (hready : whenReadable patience h = some h₁) (hw : h.waiting = w :: ws) :
    ∃ tries h₂, Later tries 0 h h₂ ∧ (∀ c ∈ tries, Vain (.receive patience) c) ∧
      ((∃ r h', attempt h₁ = (.ok r, h') ∧ r = w.brought w.told ∧
          Later [.readMessage w.told controlRoom 0 r.data.length] 1 h₂ h') ∨
        ∃ n h' c, attempt h₁ = (.error n, h') ∧ n ≠ Errno.interrupted ∧ Failed c n h₂ h' ∧
          Fails (.receive patience) n c) := by
  obtain ⟨tries, h₂, hlater, hvain, heq, huninterrupted⟩ :=
    exists_last (sizing (peekFlag ||| sizeFlag)) failed_of_size rfl (.sizing patience) h₁
  have hlater := (later_of_whenReadable hready).trans hlater
  unfold attempt
  split
  · rename_i n h' hsize
    refine ⟨_, h₂, hlater, hvain, .inr ⟨n, h', _, rfl, huninterrupted hsize, ?_, .sizing ..⟩⟩
    exact failed_of_size (heq.symm.trans hsize)
  · rename_i size h₃ hsize
    obtain ⟨htold, hsize⟩ := later_of_size (heq.symm.trans hsize)
    rw [hlater.waiting.trans hw] at hsize
    obtain ⟨⟨⟩, -⟩ | ⟨_, _, ⟨⟩, rfl⟩ := hsize
    obtain ⟨more, h₄, hlater₄, hvain₄, heq₄, huninterrupted₄⟩ :=
      exists_last (reading w.told) failed_of_read rfl (.reading patience w.told) h₃
    have hall := (hlater.trans htold).trans hlater₄
    refine ⟨_, h₄, hall, List.forall_mem_append.mpr ⟨List.forall_mem_append.mpr
      ⟨hvain, List.forall_mem_singleton.mpr (.sized ..)⟩, hvain₄⟩, ?_⟩
    cases hattempt : (reading w.told).run h₃ with
    | mk outcome h' =>
      have hcall := heq₄.symm.trans hattempt
      cases outcome with
      | ok r =>
        obtain ⟨hread, hr⟩ := later_of_read (hall.waiting.trans hw) hcall
        exact .inl ⟨r, h', rfl, hr, hread⟩
      | error n =>
        exact .inr ⟨n, h', _, rfl, huninterrupted₄ hattempt, failed_of_read hcall, .reading ..⟩

theorem served_receiveRaw (hpatience : patience ≠ some 0) (halert : h.Alert)
    (hw : h.waiting = w :: ws) (hloud : w.silent = false) :
    Served (.receive patience) (.received ((receiveRaw patience h).1.bind givenOut)) h
      (receiveRaw patience h).2 := by
  fun_induction receiveRaw patience h with
  | case1 h hnever => exact absurd hnever (whenReadable_ne_none hpatience halert)
  | case2 h h₁ hready r h₂ hattempt =>
    obtain ⟨tries, h₃, hlater, hvain, hcases⟩ := attempt_cases hready hw
    rw [hattempt] at hcases
    obtain ⟨_, _, ⟨⟩, rfl, hread⟩ | ⟨_, _, _, ⟨⟩, -⟩ := hcases
    refine .behind hlater hvain (.of_last hread ?_)
    rw [hlater.waiting.trans hw]
    exact .received w ws patience
  | case3 h h₁ hready h₂ hattempt ih =>
    obtain ⟨tries, h₃, hlater, hvain, hcases⟩ := attempt_cases hready hw
    rw [hattempt] at hcases
    obtain ⟨_, _, ⟨⟩, -⟩ | ⟨_, _, c, ⟨⟩, -, hfailed, hfails⟩ := hcases
    -- there is something to be read, so a call in vain is news
    have hnews := hfailed.news (hlater.waiting.trans hw) hloud rfl
    have hunready : Later [] 0 h₂ { h₂ with readiness.readable := false } :=
      later_readiness fun _ => .inr hnews
    have hthen := hfailed.later.trans hunready
    refine .behind hlater hvain (.behind hthen ?_ (ih (.inr hnews) ?_))
    · exact List.forall_mem_singleton.mpr (.failed (.inr rfl) hfails)
    · exact (hlater.trans hthen).waiting.trans hw
  | case4 h h₁ hready n h₂ hattempt hblocked =>
    obtain ⟨tries, h₃, hlater, hvain, hcases⟩ := attempt_cases hready hw
    rw [hattempt] at hcases
    obtain ⟨_, _, ⟨⟩, -⟩ | ⟨_, _, c, ⟨⟩, huninterrupted, hfailed, hfails⟩ := hcases
    exact .behind hlater hvain (.of_failed hfailed hfails huninterrupted hblocked)

/-! ## Looking -/

theorem served_of_failed {room flags : Nat} (hfailed : Failed (.read room flags (-n)) n h h')
    (huninterrupted : n ≠ Errno.interrupted) :
    Served .peek (.seen (if n = Errno.wouldBlock then .ok none else .error (refused n))) h h' := by
  by_cases hblocked : n = Errno.wouldBlock
  · rw [if_pos hblocked]
    subst hblocked
    exact .of_last hfailed.later (.unseen _ (.looking ..))
  · rw [if_neg hblocked]
    exact .of_failed hfailed (.looking ..) huninterrupted hblocked

theorem served_peek {s : Socket} (hopen : s.isOpen = true) :
    Served .peek (.seen s.peek.1) s.host s.peek.2.host := by
  have hnoWait : isNoWait (noWaitFlag ||| peekFlag ||| sizeFlag) = true := by decide
  obtain ⟨tries, h₁, hlater, hvain, heq, huninterrupted⟩ :=
    exists_last (sizing (noWaitFlag ||| peekFlag ||| sizeFlag)) failed_of_size rfl
      (Fails.looking 0 _) s.host
  unfold peek
  rw [if_pos hopen]
  dsimp only
  split
  · rename_i n h₂ hsize
    exact .behind hlater hvain
      (served_of_failed (failed_of_size (heq.symm.trans hsize)) (huninterrupted hsize))
  · rename_i size h₂ hsize
    obtain ⟨htold, hsize⟩ := later_of_size (heq.symm.trans hsize)
    rw [hnoWait] at hsize
    obtain ⟨-, ⟨⟩⟩ | ⟨w, ws, hw, rfl⟩ := hsize
    obtain ⟨more, h₃, hlater₃, hvain₃, heq₃, huninterrupted₃⟩ :=
      exists_last (copying w.told (peekFlag ||| noWaitFlag)) failed_of_copy rfl
        (Fails.looking w.told _) h₂
    have hall := hlater.trans (htold.trans hlater₃)
    have hvainAll : ∀ c ∈ tries ++ ([_] ++ more), Vain .peek c :=
      List.forall_mem_append.mpr ⟨hvain, List.forall_mem_append.mpr
        ⟨List.forall_mem_singleton.mpr (.sizedAhead w.told), hvain₃⟩⟩
    refine .behind hall hvainAll ?_
    split
    · rename_i n h₄ hcopy
      exact served_of_failed (failed_of_copy (heq₃.symm.trans hcopy)) (huninterrupted₃ hcopy)
    · rename_i data h₄ hcopy
      obtain ⟨hcopied, hdata⟩ := later_of_copy (heq₃.symm.trans hcopy)
      have hsame : h₃.waiting = w :: ws := (htold.trans hlater₃).waiting.trans hw
      rw [hsame] at hdata
      obtain ⟨⟨⟩, -⟩ | ⟨_, _, hfirst, rfl⟩ := hdata
      obtain ⟨rfl, rfl⟩ := List.cons.inj hfirst
      refine .of_last hcopied ?_
      rw [hsame]
      exact .seen w ws

/-! ## Uses one behind another -/

/-- Uses a socket several times. -/
def serveAll : List Use → Socket → List Answer × Socket
  | [], s => ([], s)
  | use :: uses, s =>
    let (answer, s) := use.serve s
    let (answers, s) := serveAll uses s
    (answer :: answers, s)

/-- What comes of several uses, each with its own calls. -/
inductive ServesAll (faults : Faults) :
    List Use → List Waiting → List Call → List Answer → List Waiting → Prop
  | none (ws : List Waiting) : ServesAll faults [] ws [] [] ws
  | more {use : Use} {uses : List Use} {ws ws₁ ws₂ : List Waiting} {made later : List Call}
      {answer : Answer} {answers : List Answer} (first : Serves faults use ws made answer ws₁)
      (rest : ServesAll faults uses ws₁ later answers ws₂) :
      ServesAll faults (use :: uses) ws (made ++ later) (answer :: answers) ws₂

def Use.isReceive : Use → Bool
  | receive _ => true
  | _ => false

/-- A message was sent or a datagram taken. -/
def transfers : Call → Bool
  | .send _ _ _ _ result | .readMessage _ _ _ result => 0 ≤ result
  | _ => false

/-- The transfers and the answers of sends and receives, if no call fails. -/
def undisturbed : List Use → List Waiting → List (Call × Answer)
  | .send pieces :: uses, ws =>
    (.send pieces netlinkFamily 0 0 pieces.flatten.length, .sent (.ok ())) :: undisturbed uses ws
  | .receive _ :: uses, w :: ws =>
    (.readMessage w.told controlRoom 0 (w.data.take w.told).length,
      .received (givenOut (w.brought w.told))) :: undisturbed uses ws
  | .peek :: uses, ws => undisturbed uses ws
  | _, _ => []

/-- The socket on a host where no call fails. -/
def calm (s : Socket) : Socket :=
  { s with host := { s.host with sendFaults := [], queue := s.host.waiting } }

theorem receive_eq {s : Socket} (hopen : s.isOpen = true) (patience : Option Nat) :
    s.receive patience = ((receiveRaw patience s.host).1.bind givenOut,
      { s with host := (receiveRaw patience s.host).2 }) := by
  rw [Socket.receive, if_pos hopen]
  cases receiveRaw patience s.host with
  | mk outcome host =>
    cases outcome with
    | error e => rfl
    | ok r =>
      dsimp only [Except.bind, givenOut]
      split <;> rfl

theorem isOpen_peek (s : Socket) : s.peek.2.isOpen = s.isOpen := by
  unfold peek
  dsimp only
  split
  · split
    · rfl
    · split <;> rfl
  · rfl

/-- An open socket serves each use. -/
theorem served_serve {s : Socket} (hopen : s.isOpen = true) (halert : s.host.Alert)
    (hloud : ∀ w ∈ s.host.waiting, w.silent = false)
    (hneeds : use.isReceive = true → s.host.waiting ≠ [])
    (hpatience : ∀ patience, use = .receive patience → patience ≠ some 0) :
    Served use (use.serve s).1 s.host (use.serve s).2.host ∧ (use.serve s).2.isOpen = true := by
  cases use with
  | send pieces =>
    have hserve : (Use.send pieces).serve s =
        (.sent (sendRaw pieces s.host).1, { s with host := (sendRaw pieces s.host).2 }) := by
      simp [Use.serve, Socket.send, hopen]
    rw [hserve]
    exact ⟨served_sendRaw pieces s.host, hopen⟩
  | receive patience =>
    obtain ⟨w, ws, hw⟩ := List.exists_cons_of_ne_nil (hneeds rfl)
    have hfirst := hloud w (hw ▸ List.mem_cons_self ..)
    rw [Use.serve, receive_eq hopen]
    exact ⟨served_receiveRaw (hpatience patience rfl) halert hw hfirst, hopen⟩
  | peek => exact ⟨served_peek hopen, (isOpen_peek s).trans hopen⟩

/-- No use but a receive takes a datagram, and a receive takes the first one at most. -/
theorem Use.Serves.left {faults : Faults} {ws ws' : List Waiting} {made : List Call} {answer : Answer}
    (h : Serves faults use ws made answer ws') :
    ws' ⊆ ws ∧ ws.length ≤ ws'.length + if use.isReceive then 1 else 0 := by
  obtain ⟨_, _, -, -, hdecides⟩ := h
  cases hdecides with
  | received => exact ⟨List.subset_cons_self .., Nat.le_refl _⟩
  | sent | seen | unseen | refused => exact ⟨List.Subset.refl _, Nat.le_add_right ..⟩

theorem servesAll_serveAll {s : Socket} {uses : List Use} (hopen : s.isOpen = true)
    (halert : s.host.Alert) (hloud : ∀ w ∈ s.host.waiting, w.silent = false)
    (hcount : uses.countP Use.isReceive ≤ s.host.waiting.length)
    (hpatience : ∀ patience, .receive patience ∈ uses → patience ≠ some 0) {faults : Faults}
    (hfaults : s.host.faults ⊆ faults) :
    ∃ made, (serveAll uses s).2.host.calls = s.host.calls ++ made ∧
      ServesAll faults uses s.host.waiting made (serveAll uses s).1
        (serveAll uses s).2.host.waiting := by
  induction uses generalizing s with
  | nil => exact ⟨[], (List.append_nil _).symm, .none _⟩
  | cons use uses ih =>
    have hneeds : use.isReceive = true → s.host.waiting ≠ [] := by
      intro hreceive hnone
      rw [List.countP_cons_of_pos hreceive, hnone] at hcount
      exact absurd hcount (Nat.not_succ_le_zero _)
    obtain ⟨hserved, hopen₁⟩ := served_serve hopen halert hloud hneeds fun patience huse =>
      hpatience patience (huse ▸ List.mem_cons_self ..)
    obtain ⟨made, hcalls, hserves⟩ := hserved.serves
    obtain ⟨hkept, hlength⟩ := hserves.left
    have hcount₁ : uses.countP Use.isReceive ≤ (use.serve s).2.host.waiting.length := by
      rw [List.countP_cons] at hcount
      omega
    obtain ⟨later, hlater, hrest⟩ := ih hopen₁ (hserved.alert halert)
      (fun w hw => hloud w (hkept hw)) hcount₁
      (fun patience hmem => hpatience patience (List.mem_cons_of_mem _ hmem))
      (List.Subset.trans hserved.faults hfaults)
    refine ⟨made ++ later, ?_, .more ?_ hrest⟩
    · rw [← List.append_assoc, ← hcalls]
      exact hlater
    · obtain ⟨tries, last, hmade, hvain, hdecides⟩ := hserves
      exact ⟨tries, last, hmade, hvain, hdecides.mono hfaults⟩

/-! ## Uses that nothing disturbs -/

theorem transfers_of_fails_peek {c : Call} (h : Fails .peek n c) : transfers c = false := by
  cases h
  rfl

/-- A call made in vain transfers nothing. -/
theorem transfers_of_vain {c : Call} (h : use.Vain c) : transfers c = false := by
  cases h with
  | failed hover hfails =>
    cases hfails with
    | sending | reading => rcases hover with rfl | rfl <;> rfl
    | sizing | looking => rfl
  | sized | sizedAhead => rfl

theorem transfers_sent (pieces : List Bytes) (k : Nat) :
    transfers (.send pieces netlinkFamily 0 0 k) = true :=
  decide_eq_true (Int.natCast_nonneg k)

theorem transfers_read (room k : Nat) :
    transfers (.readMessage room controlRoom 0 k) = true :=
  decide_eq_true (Int.natCast_nonneg k)

theorem filter_transfers {tries : List Call} (h : ∀ c ∈ tries, use.Vain c) (last : Call) :
    (tries ++ [last]).filter transfers = [last].filter transfers := by
  have hnone : tries.filter transfers = [] :=
    List.filter_eq_nil_iff.mpr fun c hc => by simp [transfers_of_vain (h c hc)]
  rw [List.filter_append, hnone, List.nil_append]

/-- Where calls only fail in ways that are passed over, nothing but the calls in vain and what was
looked at tells the uses from those that nothing disturbs. -/
theorem ServesAll.of_passedOver {faults : Faults} {uses : List Use} {ws ws' : List Waiting}
    {made : List Call} {answers : List Answer} (h : ServesAll faults uses ws made answers ws')
    (hfaults : ∀ n, some n ∈ faults → n = Errno.interrupted ∨ n = Errno.wouldBlock) :
    made.filter transfers = (undisturbed uses ws).map (·.1) ∧
      answers.filter Answer.isDone = (undisturbed uses ws).map (·.2) ∧
      ws' = ws.drop (uses.countP Use.isReceive) := by
  induction h with
  | none ws => exact ⟨rfl, rfl, rfl⟩
  | more first rest ih =>
    obtain ⟨hmade, hanswers, hleft⟩ := ih
    obtain ⟨tries, last, rfl, hvain, hdecides⟩ := first
    rw [List.filter_append, filter_transfers hvain, hmade]
    cases hdecides with
    | sent ws pieces =>
      refine ⟨?_, ?_, hleft⟩
      · rw [List.filter_cons_of_pos (transfers_sent ..)]
        rfl
      · simp [undisturbed, List.filter_cons, Answer.isDone, hanswers]
    | received w ws patience =>
      refine ⟨?_, ?_, ?_⟩
      · rw [List.filter_cons_of_pos (transfers_read ..)]
        rfl
      · simp [undisturbed, List.filter_cons, Answer.isDone, hanswers]
      · simp [List.countP_cons, Use.isReceive, hleft]
    | seen w ws => exact ⟨rfl, hanswers, hleft⟩
    | unseen ws fails =>
      refine ⟨?_, hanswers, hleft⟩
      simp [undisturbed, transfers_of_fails_peek fails]
    | refused ws fails may uninterrupted unblocked =>
      exact absurd (hfaults _ may) (not_or.mpr ⟨uninterrupted, unblocked⟩)

theorem waiting_calm (s : Socket) : s.calm.host.waiting = s.host.waiting := by
  simp [calm, waiting, Waiting.calm]

/-- **A socket hides what is passed over.** Let an open socket be sent on, received from and looked at
any number of times, while its calls fail in any way; let there be a datagram for each receive, and
let it learn when there is something to be read, and have some time for that. Then each use makes
calls in vain, which were interrupted, would have had to wait or told a size, and a last one that
decides. Either a send hands over all pieces, a receive takes the first datagram and gives it out, the
end of the file if it is empty, and a look leaves it where it is and shows it, or nothing if it would
have had to wait; or the last call failed in another way, which is the failure of the use. If no call
fails in another way, then each send and each receive makes one transfer that succeeds, the one that
it would make if no call failed, and its answer is the same; so the datagrams come once each, in their
order, and those that were not asked for still wait. -/
theorem serveAll_passesOver {s : Socket} {uses : List Use} (hopen : s.isOpen = true)
    (halert : s.host.Alert) (hloud : ∀ w ∈ s.host.queue, w.silent = false)
    (hcount : uses.countP Use.isReceive ≤ s.host.queue.length)
    (hpatience : ∀ patience, .receive patience ∈ uses → patience ≠ some 0) :
    let answers := (serveAll uses s).1
    let host := (serveAll uses s).2.host
    ∃ made, host.calls = s.host.calls ++ made ∧
      ServesAll s.host.faults uses s.host.waiting made answers host.waiting ∧
      ((∀ n, some n ∈ s.host.faults → n = Errno.interrupted ∨ n = Errno.wouldBlock) →
        made.filter transfers = (undisturbed uses s.host.waiting).map (·.1) ∧
          answers.filter Answer.isDone = (undisturbed uses s.host.waiting).map (·.2) ∧
          answers.filter Answer.isDone = (serveAll uses s.calm).1.filter Answer.isDone ∧
          host.waiting = s.host.waiting.drop (uses.countP Use.isReceive)) := by
  intro answers host
  have hloud : ∀ w ∈ s.host.waiting, w.silent = false := by
    intro w hw
    obtain ⟨v, hv, rfl⟩ := List.mem_map.mp hw
    exact hloud v hv
  have hcount : uses.countP Use.isReceive ≤ s.host.waiting.length := by
    rwa [waiting, List.length_map]
  obtain ⟨made, hcalls, hserves⟩ :=
    servesAll_serveAll hopen halert hloud hcount hpatience (List.Subset.refl _)
  refine ⟨made, hcalls, hserves, fun hfaults => ?_⟩
  obtain ⟨hmade, hanswers, hleft⟩ := hserves.of_passedOver hfaults
  have hnone : s.calm.host.faults = [] := by simp [calm, waiting, faults, Waiting.calm]
  obtain ⟨_, -, hcalm⟩ := servesAll_serveAll (s := s.calm) hopen halert
    (by rwa [waiting_calm]) (by rwa [waiting_calm]) hpatience (List.Subset.refl _)
  rw [waiting_calm, hnone] at hcalm
  obtain ⟨-, hsame, -⟩ := hcalm.of_passedOver fun n hn => absurd hn List.not_mem_nil
  exact ⟨hmade, hanswers, hanswers.trans hsame.symm, hleft⟩

/-- A send and two receives with a look between them. Calls are interrupted and would have to wait in
turn, the second time between the size of the first datagram and its read. Of the control messages of
the second datagram the middle one is about something else, and of the last one only the header has
room. -/
theorem serveAll_passesOver_sample :
    let first : Waiting :=
      { data := [7, 8, 9], sizeFaults := [some 4, none, some 11], readFaults := [some 11, some 4] }
    let control : List Control :=
      [⟨270, 8, [9, 0, 0, 0]⟩, ⟨1, 8, [5, 0, 0, 0]⟩, ⟨270, 8, [4, 0, 0, 0]⟩]
    let second : Waiting := { data := [6], sender := 3, control, readFaults := [some 11] }
    let host : Host := { sendFaults := [some 4, some 11], queue := [first, second] }
    let s : Socket := ⟨host, .route, 77, true⟩
    let uses : List Use := [.send [[1], [2, 3]], .receive none, .peek, .receive (some 10)]
    s.isOpen = true ∧ s.host.Alert ∧ (∀ w ∈ s.host.queue, w.silent = false) ∧
      uses.countP Use.isReceive ≤ s.host.queue.length ∧
      (∀ patience, .receive patience ∈ uses → patience ≠ some 0) ∧
      (∀ n, some n ∈ s.host.faults → n = Errno.interrupted ∨ n = Errno.wouldBlock) ∧
      (serveAll uses s).1.filter Answer.isDone =
        [.sent (.ok ()), .received (.ok ⟨[7, 8, 9], 0, false, none⟩),
          .received (.ok ⟨[6], 3, false, some 9⟩)] ∧
      (serveAll uses s).2.host.waiting = [] := by
  intro first control second host s uses
  have halert : s.host.Alert := .inr rfl
  have hloud : ∀ w ∈ s.host.queue, w.silent = false := by decide
  have hcount : uses.countP Use.isReceive ≤ s.host.queue.length := by decide
  have hpatience : ∀ patience, .receive patience ∈ uses → patience ≠ some 0 := by
    intro patience hmem
    have hboth : patience = none ∨ patience = some 10 := by simpa [uses] using hmem
    rcases hboth with rfl | rfl <;> simp
  have hfaults : ∀ n, some n ∈ s.host.faults → n = Errno.interrupted ∨ n = Errno.wouldBlock := by
    have hall : ∀ f ∈ s.host.faults, ∀ n ∈ f, n = Errno.interrupted ∨ n = Errno.wouldBlock := by
      decide
    exact fun n hn => hall (some n) hn n rfl
  obtain ⟨_, -, -, hpassed⟩ := serveAll_passesOver rfl halert hloud hcount hpatience
  obtain ⟨-, hanswers, -, hleft⟩ := hpassed hfaults
  exact ⟨rfl, halert, hloud, hcount, hpatience, hfaults, hanswers, hleft⟩

end Socket
end Netlink
