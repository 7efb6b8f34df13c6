import Netlink.Conversation.DumpRequest
import Netlink.Proofs.Conversation.PassingOver

/-! # Numbers that tell requests apart

All requests of a conversation draw their numbers from one counter, which wraps around. As long as it
has not come around, every request has a number of its own, whatever became of the requests before:
the window of an exchange holds the numbers of its own requests and no others, and an outstanding
dump is told from everything else that was asked. Messages that were meant for an earlier request
are therefore passed over. -/

namespace Netlink

/-! ## Consecutive numbers -/

namespace Exchange

theorem length_numbers (seq : UInt32) (count : Nat) : (numbers seq count).length = count := by
  rw [numbers, List.length_map, List.length_range]

theorem numbers_add (seq : UInt32) (m n : Nat) :
    numbers seq (m + n) = numbers seq m ++ numbers (seq + UInt32.ofNat m) n := by
  induction m generalizing seq with
  | zero =>
    have hzero : seq + UInt32.ofNat 0 = seq := UInt32.add_zero seq
    rw [Nat.zero_add, hzero]
    rfl
  | succ m ih =>
    have hnext : seq + UInt32.ofNat (m + 1) = seq + 1 + UInt32.ofNat m := by
      rw [UInt32.ofNat_add, UInt32.add_comm (UInt32.ofNat m), ← UInt32.add_assoc]
      rfl
    rw [Nat.succ_add, numbers_succ, numbers_succ, ih, hnext]
    rfl

/-- Numbers do not repeat before the counter has come around. -/
theorem nodup_numbers {count : Nat} (hcount : count < UInt32.size) (seq : UInt32) :
    (numbers seq count).Nodup := by
  rw [numbers, List.Nodup, List.pairwise_map]
  refine List.Pairwise.imp_of_mem ?_ List.nodup_range
  intro i j hi hj hne hsame
  rw [List.mem_range] at hi hj
  have hoffset := congrArg UInt32.toNat ((UInt32.add_right_inj _).mp hsame)
  -- below the range of the counter, offsets that wrap to the same number are the same
  rw [UInt32.toNat_ofNat_of_lt' (by omega), UInt32.toNat_ofNat_of_lt' (by omega)] at hoffset
  exact hne hoffset

end Exchange

/-! ## What reading leaves alone -/

/-- A reader that leaves a conversation settled after every datagram leaves it so in the end. -/
theorem Connection.settled_drain {σ β α : Type} [Transport σ] {r : Reader β α}
    (hkeeps : ∀ d c memory, (r.step d c memory).state.settled = c.settled) (c : Connection σ)
    (memory : β) : (c.drain r memory).2.state.settled = c.state.settled := by
  fun_induction Connection.drain r c memory with
  | case1 c memory d s hreceive state c' memory' hmore ih =>
    have hstep := hkeeps d state memory
    rw [hmore] at hstep
    exact ih.trans hstep
  | case2 c memory d s hreceive state c' memory' result hfinished =>
    have hstep := hkeeps d state memory
    rw [hfinished] at hstep
    exact hstep
  | case3 c memory fault s hreceive hsurvives ih => exact ih
  | case4 => rfl
  | case5 => rfl

theorem Exchange.settled_step (x : Exchange) (d : Datagram) (c : Conversation) (memory : Unit) :
    (x.step d c memory).state.settled = c.settled := by
  have hjudge := Conversation.settled_of_bare
    (bare_judge x d.sender (Frame.walk d.data).frames c)
  unfold step
  split
  · rfl
  · dsimp only
    split
    · rename_i c' result hdecided
      rw [hdecided] at hjudge
      exact hjudge
    · rename_i c' hundecided
      rw [hundecided] at hjudge
      split <;> exact hjudge

theorem Dump.settled_step {β : Type} (ks : List (Consumer β)) (d : Datagram) (c : Conversation)
    (memory : β) :
    (step ks d c memory).state.settled = c.settled :=
  (Conversation.settled_of_bare (bare_step ks d c memory)).trans
    (Conversation.settled_record c d.data)

/-! ## Operations -/

/-- Everything that asks over a connection or reads what was asked for. -/
inductive Operation : Type 1 where
  | request (d : Draft)
  | requestReporting (d : Draft) (handler : AckHandler)
  | requestQuietly (d : Draft)
  | requestAll (requests : List Draft)
  | ask (d : Draft)
  | requestDump (family : UInt8) (type : UInt16)
  | requestLinks (family : UInt8) (type : UInt16) (details : UInt32)
  | requestAllLinks (family : UInt8) (type : UInt16)
  | requestDumpWith (type : UInt16) (fixed : Bytes)
  | requestDumpBy (d : Draft)
  | requestDumpBuilding (family : UInt8) (type : UInt16) (steps : List Draft.Step)
  | requestStatistics (family : UInt8) (type : UInt16) (mask : UInt32)
  | readDump {β : Type} (ks : List (Consumer β)) (memory : β)

namespace Operation

variable {σ : Type} [Transport σ]

/-- The connection afterwards, whether the operation succeeded or not. -/
def run : Operation → Connection σ → Connection σ
  | request d, c => (Connection.request d c).2
  | requestReporting d handler, c => (Connection.requestReporting d handler c).2
  | requestQuietly d, c => (Connection.requestQuietly d c).2
  | requestAll requests, c => (Connection.requestAll requests c).2
  | ask d, c => (Connection.ask d c).2
  | requestDump family type, c => (Connection.requestDump family type c).2
  | requestLinks family type details, c => (Connection.requestLinks family type details c).2
  | requestAllLinks family type, c => (Connection.requestAllLinks family type c).2
  | requestDumpWith type fixed, c => (Connection.requestDumpWith type fixed c).2
  | requestDumpBy d, c => (Connection.requestDumpBy d c).2
  | requestDumpBuilding family type steps, c =>
    (Connection.requestDumpBuilding family type steps c).2
  | requestStatistics family type mask, c => (Connection.requestStatistics family type mask c).2
  | readDump ks memory, c => (Connection.readDump ks memory c).2

/-- The requests that an exchange sends, and whether it wants an answer. -/
def batch? : Operation → Option (List Draft × Bool)
  | request d | requestReporting d _ | requestQuietly d => some ([d], false)
  | requestAll requests => some (requests, false)
  | ask d => some ([d], true)
  | _ => none

/-- The number of a request for a dump, if it can be built. -/
def dumpNumber (built : Except Error Draft) (c : Conversation) : Option UInt32 :=
  match built with
  | .ok d => some ((d.setPid 0).setSeq c.nextSeq).seq
  | .error _ => none

/-- The number that a request for a dump gets. -/
def dump? : Operation → Conversation → Option UInt32
  | requestDump family type, c => dumpNumber (Dump.plainRequest family type) c
  | requestLinks family type details, c => dumpNumber (Dump.linkRequest family type details) c
  | requestAllLinks family type, c =>
    dumpNumber (Dump.linkRequest family type Link.virtualFunctions) c
  | requestDumpWith _ _, c => some c.nextSeq
  | requestDumpBy d, c => dumpNumber (.ok (d.addFlags MessageFlag.dumpRequest)) c
  | requestDumpBuilding family type steps, c =>
    dumpNumber (Dump.criteriaRequest family type steps) c
  | requestStatistics family type mask, c =>
    dumpNumber (Dump.statisticsRequest family type mask) c
  | _, _ => none

/-- The numbers that the operation's requests get. -/
def stamped (op : Operation) (c : Conversation) : List UInt32 :=
  match op.batch? with
  | some (requests, wantsAnswer) => (Exchange.stamp wantsAnswer requests c).1.map Draft.seq
  | none => (op.dump? c).toList

end Operation

namespace Connection

open Exchange (stamp)

variable {σ : Type} [Transport σ] {requests : List Draft} {wantsAnswer quiet : Bool}
  {handler : AckHandler} {c : Connection σ}

theorem settled_send (pieces : List Bytes) (c : Connection σ) :
    (send pieces c).2.state.settled = c.state.settled := rfl

theorem settled_exchange (requests : List Draft) (c : Connection σ) :
    (exchange requests wantsAnswer quiet handler c).2.state.settled =
      (stamp wantsAnswer requests c.state).2.settled := by
  cases requests with
  | nil => rfl
  | cons d ds =>
    have hsent := settled_send ((stamp wantsAnswer (d :: ds) c.state).1.map Draft.encode)
      ⟨c.endpoint, (stamp wantsAnswer (d :: ds) c.state).2⟩
    rw [exchange_run (List.cons_ne_nil d ds)]
    generalize send ((stamp wantsAnswer (d :: ds) c.state).1.map Draft.encode)
      ⟨c.endpoint, (stamp wantsAnswer (d :: ds) c.state).2⟩ = outcome at hsent ⊢
    obtain ⟨e | _, sent⟩ := outcome
    · exact hsent
    · exact (settled_drain (Exchange.settled_step _) sent ()).trans hsent

end Connection

namespace Operation

open Exchange (stamp posed numbers)

variable {σ : Type} [Transport σ] {op : Operation} {requests : List Draft} {wantsAnswer : Bool}

/-! ## What an operation does with the counter -/

/-- An operation that sends a batch is an exchange. -/
theorem run_of_batch (h : op.batch? = some (requests, wantsAnswer)) (c : Connection σ) :
    ∃ quiet handler, op.run c = (Connection.exchange requests wantsAnswer quiet handler c).2 := by
  cases op with
  | request d | requestAll ds =>
    cases h
    exact ⟨_, _, congrArg Prod.snd (Connection.requestAll_run _ c)⟩
  | requestReporting d handler =>
    cases h
    exact ⟨_, _, congrArg Prod.snd (Connection.requestReporting_run d handler c)⟩
  | requestQuietly d =>
    cases h
    exact ⟨_, _, congrArg Prod.snd (Connection.requestQuietly_run d c)⟩
  | ask d =>
    cases h
    exact ⟨_, _, congrArg Prod.snd (Connection.ask_run d c)⟩
  | _ => cases h

theorem stamped_of_batch (h : op.batch? = some (requests, wantsAnswer)) (c : Conversation) :
    op.stamped c = (stamp wantsAnswer requests c).1.map Draft.seq := by
  rw [stamped, h]

theorem length_stamped_of_batch (h : op.batch? = some (requests, wantsAnswer)) (c : Conversation) :
    (op.stamped c).length = requests.length := by
  rw [stamped_of_batch h, (Exchange.stamp_eq wantsAnswer requests c).1, Exchange.length_numbers]

theorem dumpNumber_eq {built : Except Error Draft} {c : Conversation} {number : UInt32}
    (h : dumpNumber built c = some number) : number = c.nextSeq := by
  cases built with
  | error e => cases h
  | ok d =>
    cases h
    rfl

theorem stamped_of_dump? {c : Conversation} {number : UInt32} (h : op.dump? c = some number) :
    op.stamped c = [number] ∧ number = c.nextSeq := by
  have hbatch : op.batch? = none := by
    cases op <;> first | rfl | cases h
  refine ⟨?_, ?_⟩
  · rw [stamped, hbatch]
    dsimp only
    rw [h]
    rfl
  · cases op with
    | requestDumpWith | requestDumpBy =>
      cases h
      rfl
    | requestDump | requestLinks | requestAllLinks | requestDumpBuilding | requestStatistics =>
      exact dumpNumber_eq h
    | _ => cases h

/-- A request for a dump that can be built is sent with its number in its header. -/
theorem run_of_built {built : Except Error Draft} {c : Connection σ} {number : UInt32}
    (h : dumpNumber built c.state = some number) :
    ∃ header rest,
      ((do Connection.sendDump (← Connection.settling built) : Action σ Unit) c).2 =
        (Connection.send [Header.encode header ++ rest] ⟨c.endpoint, c.state.startDump⟩).2 ∧
      header.seq = number := by
  cases built with
  | error e => cases h
  | ok d =>
    rw [dumpNumber_eq h, Action.bind_eq]
    exact ⟨((d.setPid 0).setSeq c.state.nextSeq).header, d.body.bytes, rfl, rfl⟩

/-- An operation that asks for a dump sends one request, with its number in the header. -/
theorem run_of_dump? {c : Connection σ} {number : UInt32} (h : op.dump? c.state = some number) :
    ∃ header rest pieces,
      op.run c = (Connection.send pieces ⟨c.endpoint, c.state.startDump⟩).2 ∧
      pieces.flatten = Header.encode header ++ rest ∧ header.seq = number := by
  cases op with
  | requestDump | requestLinks | requestAllLinks | requestDumpBuilding | requestStatistics =>
    obtain ⟨header, rest, hrun, hnumber⟩ := run_of_built h
    exact ⟨header, rest, _, hrun, List.append_nil _, hnumber⟩
  | requestDumpBy d =>
    have hbuilt : dumpNumber (.ok (d.addFlags MessageFlag.dumpRequest)) c.state = some number := h
    obtain ⟨header, rest, hrun, hnumber⟩ := run_of_built hbuilt
    exact ⟨header, rest, _, hrun, List.append_nil _, hnumber⟩
  | requestDumpWith type fixed =>
    cases h
    let length := UInt32.ofNat (headerSize + fixed.length)
    refine ⟨⟨length, type, MessageFlag.dumpRequest, c.state.nextSeq, 0⟩, fixed, _, rfl, ?_, rfl⟩
    exact congrArg _ (List.append_nil fixed)
  | _ => cases h

theorem stamped_eq (op : Operation) (c : Conversation) :
    op.stamped c = numbers c.seq (op.stamped c).length := by
  cases hbatch : op.batch? with
  | some batch =>
    obtain ⟨requests, wantsAnswer⟩ := batch
    rw [length_stamped_of_batch hbatch, stamped_of_batch hbatch]
    exact (Exchange.stamp_eq wantsAnswer requests c).1
  | none =>
    cases hdump : op.dump? c with
    | some number =>
      obtain ⟨hstamped, rfl⟩ := stamped_of_dump? hdump
      rw [hstamped]
      exact (congrArg (fun number => [number]) (UInt32.add_zero (c.seq + 1))).symm
    | none =>
      rw [stamped, hbatch]
      dsimp only
      rw [hdump]
      rfl

theorem settled_built (built : Except Error Draft) (c : Connection σ) :
    ((do Connection.sendDump (← Connection.settling built) : Action σ Unit) c).2.state.settled =
      ({ c.state with
        seq := c.state.seq + UInt32.ofNat (dumpNumber built c.state).toList.length
        dumpSeq := (dumpNumber built c.state).getD c.state.dumpSeq } : Conversation).settled := by
  rw [Action.bind_eq]
  cases built with
  | ok d => rfl
  | error e =>
    have hzero : c.state.seq + UInt32.ofNat 0 = c.state.seq := UInt32.add_zero c.state.seq
    change c.state.settled =
      { c.state.settled with seq := c.state.seq + UInt32.ofNat 0, dumpSeq := c.state.dumpSeq }
    rw [hzero]
    rfl

/-- The counter moves on by as many numbers as the operation has requests, and a request for a dump
makes it the outstanding one. Nothing else changes that tells messages apart. -/
theorem settled_run (op : Operation) (c : Connection σ) :
    (op.run c).state.settled =
      ({ c.state with
        seq := c.state.seq + UInt32.ofNat (op.stamped c.state).length
        dumpSeq := (op.dump? c.state).getD c.state.dumpSeq } : Conversation).settled := by
  cases hbatch : op.batch? with
  | some batch =>
    obtain ⟨requests, wantsAnswer⟩ := batch
    obtain ⟨quiet, handler, hrun⟩ := run_of_batch hbatch c
    have hstate := (Exchange.stamp_eq wantsAnswer requests c.state).2
    have hnodump : op.dump? c.state = none := by
      cases op <;> first | rfl | cases hbatch
    rw [hrun, Connection.settled_exchange, hstate, length_stamped_of_batch hbatch, hnodump]
    rfl
  | none =>
    -- without a batch the operation asks for a dump or reads one
    cases op with
    | request | requestReporting | requestQuietly | requestAll | ask => cases hbatch
    | requestDump | requestLinks | requestAllLinks | requestDumpBuilding | requestStatistics =>
      exact settled_built _ c
    | requestDumpWith | requestDumpBy => rfl
    | readDump ks memory =>
      have hread := Connection.settled_drain (r := Dump.reader ks) (Dump.settled_step ks) c memory
      have hzero : c.state.seq + UInt32.ofNat 0 = c.state.seq := UInt32.add_zero c.state.seq
      change (c.drain (Dump.reader ks) memory).2.state.settled =
        { c.state.settled with seq := c.state.seq + UInt32.ofNat 0, dumpSeq := c.state.dumpSeq }
      rw [hread, hzero]
      rfl

end Operation

/-! ## Runs -/

/-- What a run has numbered. -/
structure Ledger where
  /-- The numbers of all requests, in order. -/
  stamped : List UInt32 := []
  /-- The number of the latest request for a dump. -/
  dump : Option UInt32 := none

def Ledger.enter (l : Ledger) (op : Operation) (c : Conversation) : Ledger where
  stamped := l.stamped ++ op.stamped c
  dump := op.dump? c <|> l.dump

namespace Operation

variable {σ : Type} [Transport σ]

/-- Operations one after another, whatever becomes of each. -/
def runAll : List Operation → Connection σ → Ledger → Connection σ × Ledger
  | [], c, l => (c, l)
  | op :: ops, c, l => runAll ops (op.run c) (l.enter op c.state)

end Operation

/-- The ledger of a conversation that began with the number `begun`. -/
structure Ledger.Keeps (begun : UInt32) (l : Ledger) (c : Conversation) : Prop where
  stamped : l.stamped = Exchange.numbers begun l.stamped.length
  counter : c.seq = begun + UInt32.ofNat l.stamped.length
  dump : ∀ number, l.dump = some number → number ∈ l.stamped ∧ c.dumpSeq = number

namespace Ledger.Keeps

open Exchange (numbers)

variable {σ : Type} [Transport σ] {begun : UInt32} {l : Ledger} {c : Connection σ}

theorem step (h : l.Keeps begun c.state) (op : Operation) :
    (l.enter op c.state).Keeps begun (op.run c).state := by
  obtain ⟨-, -, -, hseq, hdumpSeq, -⟩ := Conversation.eq_of_settled (Operation.settled_run op c)
  have hlength : (l.enter op c.state).stamped.length =
      l.stamped.length + (op.stamped c.state).length := List.length_append
  dsimp only at hseq hdumpSeq
  refine ⟨?_, ?_, fun number hnumber => ?_⟩
  · have hown := Operation.stamped_eq op c.state
    rw [h.counter] at hown
    rw [hlength, Exchange.numbers_add, ← h.stamped, ← hown]
    rfl
  · rw [hseq, h.counter, hlength, UInt32.ofNat_add, UInt32.add_assoc]
  · rw [hdumpSeq]
    change (op.dump? c.state <|> l.dump) = some number at hnumber
    cases hdump : op.dump? c.state with
    | some latest =>
      rw [hdump] at hnumber
      obtain rfl : latest = number := Option.some.inj hnumber
      obtain ⟨hstamped, -⟩ := Operation.stamped_of_dump? hdump
      refine ⟨List.mem_append_right _ ?_, rfl⟩
      rw [hstamped]
      exact List.mem_singleton_self latest
    | none =>
      rw [hdump] at hnumber
      obtain ⟨hmem, hsame⟩ := h.dump number hnumber
      exact ⟨List.mem_append_left _ hmem, hsame⟩

theorem runAll (h : l.Keeps begun c.state) (ops : List Operation) :
    (Operation.runAll ops c l).2.Keeps begun (Operation.runAll ops c l).1.state := by
  induction ops generalizing c l with
  | nil => exact h
  | cons op ops ih => exact ih (h.step op)

/-- As long as the counter has not come around, no number is given twice. -/
theorem nodup {c : Conversation} (h : l.Keeps begun c) (hfew : l.stamped.length < UInt32.size) :
    l.stamped.Nodup := by
  rw [h.stamped]
  exact Exchange.nodup_numbers hfew begun

/-- The dump that was asked for last passes over what was meant for all other requests. -/
theorem dump_passesOver {c : Conversation} (h : l.Keeps begun c) (hnodup : l.stamped.Nodup)
    {number : UInt32} (hdump : l.dump = some number) :
    ∃ before after, l.stamped = before ++ number :: after ∧ c.dumpSeq = number ∧
      Dump.PassesOver c (before ++ after) := by
  obtain ⟨hmem, hnumber⟩ := h.dump number hdump
  obtain ⟨before, after, hsplit⟩ := List.append_of_mem hmem
  refine ⟨before, after, hsplit, hnumber, Dump.passesOver ?_⟩
  rw [hsplit] at hnodup
  obtain ⟨-, hbehind, hapart⟩ := List.nodup_append.mp hnodup
  rw [hnumber, List.mem_append]
  rintro (hbefore | hafter)
  · exact hapart number hbefore number List.mem_cons_self rfl
  · exact (List.nodup_cons.mp hbehind).1 hafter

end Ledger.Keeps

namespace Operation

open Exchange (stamp posed inWindow)

variable {σ : Type} [Transport σ]

/-- **No answer is taken for another.** After any run of operations, and with one more, all requests
have numbers of their own if there are fewer of them than numbers, and are sent with them. The window
of an exchange holds the numbers of its own requests and no others, even where the counter wraps
around, and it passes over whatever was meant for an earlier request. A dump that was asked for last
passes over whatever was meant for any other request. -/
theorem stale_passed_over (ops : List Operation) (op : Operation) (c : Connection σ)
    (hfew : ((runAll ops c {}).2.enter op (runAll ops c {}).1.state).stamped.length <
      UInt32.size) :
    let now := (runAll ops c {}).1
    let ledger := (runAll ops c {}).2
    let own := op.stamped now.state
    (ledger.stamped ++ own).Nodup ∧
      (∀ requests wantsAnswer, op.batch? = some (requests, wantsAnswer) → ∃ quiet handler,
        let x := posed requests wantsAnswer quiet handler now.state
        let (stamped, state) := stamp wantsAnswer requests now.state
        (requests ≠ [] → ∀ sent,
          Connection.send (stamped.map Draft.encode) ⟨now.endpoint, state⟩ = (.ok (), sent) →
          op.run now = (sent.drain x.reader ()).2) ∧
        own = stamped.map Draft.seq ∧
        (∀ number, inWindow x.last x.count number = true ↔ number ∈ own) ∧
        x.PassesOver ledger.stamped) ∧
      (∀ number, op.dump? now.state = some number → own = [number] ∧ ∃ header rest pieces,
        op.run now = (Connection.send pieces ⟨now.endpoint, now.state.startDump⟩).2 ∧
        pieces.flatten = Header.encode header ++ rest ∧ header.seq = number) ∧
      ∀ number, ledger.dump = some number → ∃ before after,
        ledger.stamped = before ++ number :: after ∧ now.state.dumpSeq = number ∧
          Dump.PassesOver now.state (before ++ after) := by
  intro now ledger own
  -- the ledger is kept from the start through the run, and so after the operation
  have hbegun : ({} : Ledger).Keeps c.state.seq c.state :=
    ⟨rfl, (UInt32.add_zero c.state.seq).symm, nofun⟩
  have hledger : ledger.Keeps c.state.seq now.state := hbegun.runAll ops
  have hnodup : (ledger.stamped ++ own).Nodup := (hledger.step op).nodup hfew
  obtain ⟨hearlier, -, hdisjoint⟩ := List.nodup_append.mp hnodup
  refine ⟨hnodup, fun requests wantsAnswer hbatch => ?_,
    fun number hdump => ⟨(stamped_of_dump? hdump).1, run_of_dump? hdump⟩,
    fun number hdump => hledger.dump_passesOver hearlier hdump⟩
  obtain ⟨quiet, handler, hrun⟩ := run_of_batch hbatch now
  have hown : own = (stamp wantsAnswer requests now.state).1.map Draft.seq :=
    stamped_of_batch hbatch now.state
  have hcount : requests.length < UInt32.size := by
    have hlength : own.length = requests.length := length_stamped_of_batch hbatch now.state
    have htotal : (ledger.stamped ++ own).length < UInt32.size := hfew
    rw [List.length_append] at htotal
    omega
  have hwindow : ∀ number, inWindow (posed requests wantsAnswer quiet handler now.state).last
      (posed requests wantsAnswer quiet handler now.state).count number = true ↔
        number ∈ own := by
    intro number
    rw [hown]
    exact Exchange.inWindow_posed hcount number
  refine ⟨quiet, handler, fun hsome sent hsent => ?_, hown, hwindow,
    Exchange.passesOver fun number hstale => ?_⟩
  · rw [hrun, Connection.exchange_run hsome, hsent]
  · rw [Bool.eq_false_iff]
    intro hin
    exact hdisjoint number hstale number ((hwindow number).mp hin) rfl

/-- A dump is asked for, and then two requests are sent whose numbers lie around the end of the
range. -/
theorem stale_passed_over_sample :
    let ops : List Operation := [.requestDump 0 18]
    let op : Operation := .requestAll [Draft.new 16 1, Draft.new 18 1]
    let c : Connection Script :=
      { Connection.sampleExchange with
        state := { Connection.sampleExchange.state with seq := 0xfffffffd } }
    ((runAll ops c {}).2.enter op (runAll ops c {}).1.state).stamped.length < UInt32.size ∧
      ∃ x : Exchange, inWindow x.last x.count 0xffffffff = true ∧
        inWindow x.last x.count 0 = true ∧ x.PassesOver [0xfffffffe] := by
  intro ops op c
  have hfew : ((runAll ops c {}).2.enter op (runAll ops c {}).1.state).stamped.length <
      UInt32.size := by decide +kernel
  obtain ⟨-, hbatch, -⟩ := stale_passed_over ops op c hfew
  obtain ⟨quiet, handler, -, -, hwindow, hstale⟩ := hbatch _ _ rfl
  have hown : op.stamped (runAll ops c {}).1.state = [0xffffffff, 0] := by decide +kernel
  have hledger : (runAll ops c {}).2.stamped = [0xfffffffe] := by decide +kernel
  rw [hown] at hwindow
  rw [hledger] at hstale
  exact ⟨hfew, _, (hwindow _).mpr (by decide), (hwindow _).mpr (by decide), hstale⟩

end Operation
end Netlink
