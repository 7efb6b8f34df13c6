import Netlink.Proofs.Conversation.Silence

/-! # Whether the log agrees with the outcome

A conversation that writes the kernel's text to the log tells a code while it fails with that code.
The number in the report is that of the failure if the code is negative. It is not if the code is
positive, for then the report shows the negation and the failure the size, nor for the least code,
which has no negation. A dump that ends well may have told a code: that of a DONE with a text and a
positive code. -/

namespace Netlink

/-! ## Numbers -/

/-- The negation of a code is its size if the code is not positive and not the least there is. -/
theorem Error.toInt_neg_eq_number_iff (code : Int32) :
    (-code).toInt = number code ↔ Int32.minValue < code ∧ code ≤ 0 := by
  have hleast : Int32.minValue.toInt = -2147483648 := by decide
  have hhigh := code.toInt_lt
  rw [Int32.lt_iff_toInt_lt, Int32.le_iff_toInt_le, Int32.toInt_zero, number, hleast]
  by_cases hmin : code = Int32.minValue
  · subst hmin
    decide
  · have habove := least_lt_toInt hmin
    rw [Int32.toInt_neg, Int.bmod_eq_of_le (by omega) (by omega)]
    omega

namespace Event

/-- The code that the report shows the negation of. -/
def code? : Event → Option Int32
  | .requestRefused code _ | .kernelError _ code => some code
  | _ => none

/-- The report shows this number as that of the failure. -/
def Shows (e : Event) (errno : Nat) : Prop := e.fields.lookup "errno" = some (.number errno)

/-- The report is about this result: the kernel refused, with the code that the report shows the
negation of if it does. The number shown is that of the refusal exactly if such a code is negative
and not the least there is. A report that an object is too large shows no number. -/
def Concerns {α : Type} (e : Event) (result : Except Error α) : Prop :=
  ∃ errno detail, result = .error (.kernel errno detail) ∧
    (∀ code, e.code? = some code → errno = Error.number code) ∧
    (e = .objectTooLarge ∧ errno = Errno.messageTooLong ∨
      (e.Shows errno ↔ ∀ code, e.code? = some code → Int32.minValue < code ∧ code < 0))

variable {code : Int32} {detail : Option String} {α : Type}

/-- A report that shows the negation of a code is about the refusal with that code. -/
theorem concerns_of_code {e : Event} (hcode : e.code? = some code)
    (hshows : e.fields.lookup "errno" = some (.number (-code).toInt)) (hfailed : code ≠ 0) :
    e.Concerns (.error (Error.ofCode code detail) : Except Error α) := by
  have hnegative : code ≤ 0 ↔ code < 0 := by
    rw [Int32.le_iff_lt_or_eq, or_iff_left hfailed]
  refine ⟨Error.number code, detail, rfl, fun code' hcode' => ?_, .inr ?_⟩
  · rw [Option.some.inj (hcode.symm.trans hcode')]
  · rw [Shows, hshows, hcode, Option.some.injEq, Field.number.injEq,
      Error.toInt_neg_eq_number_iff, hnegative]
    exact ⟨fun h code' hcode' => Option.some.inj hcode' ▸ h, fun h => h code rfl⟩

theorem concerns_dumpRefused :
    (Event.dumpRefused (Error.number code)).Concerns
      (.error (Error.ofCode code detail) : Except Error α) := by
  refine ⟨Error.number code, detail, rfl, fun code' h => (by cases h), .inr ?_⟩
  exact iff_of_true rfl fun code' h => by cases h

/-- Whatever is said about a dump that DONE breaks off is about its failure. -/
theorem concerns_of_doneReport {e : Event} (h : e ∈ Dump.doneReport (Error.number code)) :
    e.Concerns (.error (Error.ofCode code detail) : Except Error α) := by
  unfold Dump.doneReport at h
  split at h
  · cases h
  · split at h
    · rename_i hlarge
      rw [List.mem_singleton.mp h]
      exact ⟨Error.number code, detail, rfl, fun code' h => (by cases h), .inl ⟨rfl, hlarge⟩⟩
    · rw [List.mem_singleton.mp h]
      exact concerns_dumpRefused

end Event

/-- The kernel's text tells the code of the acknowledgement it comes with. -/
theorem Ack.eq_kernelError {a : Ack} {e : Event} (he : e ∈ a.report) (htells : e.tellsCode = true) :
    a.code ≠ 0 ∧ ∃ text, e = .kernelError text a.code := by
  unfold Ack.report at he
  split at he
  · cases he
  · rename_i text _
    split at he
    · rename_i hfailed
      exact ⟨by simpa [isError] using hfailed, text, List.mem_singleton.mp he⟩
    · rw [List.mem_singleton.mp he] at htells
      cases htells

open Conversation (Reported Silent Told)

/-- Between two points of a conversation codes were told only in reports about this result. -/
abbrev Conversation.Concerning {α : Type} (result : Except Error α) (c c' : Conversation) : Prop :=
  Reported (fun e => e.tellsCode = true → e.Concerns result) c c'

open Conversation (Concerning)

variable {c c₁ c' : Conversation}

theorem Conversation.Concerning.of_silent {α : Type} {result : Except Error α} (h : Silent c c') :
    Concerning result c c' := by
  refine h.mono fun e hsilent htells => ?_
  rw [hsilent] at htells
  cases htells

/-- What is about a result is about one that carries its failure on. -/
theorem Conversation.Concerning.carried {α β : Type} {result : Except Error α}
    {result' : Except Error β} (h : Concerning result c c')
    (hcarried : ∀ e, result = .error e → result' = .error e) : Concerning result' c c' := by
  refine h.mono fun e hconcerns htells => ?_
  obtain ⟨errno, detail, hrefused, hrest⟩ := hconcerns htells
  exact ⟨errno, detail, hcarried _ hrefused, hrest⟩

/-- Nothing is about a success. -/
theorem Conversation.Concerning.silent {α : Type} {a : α}
    (h : Concerning (.ok a : Except Error α) c c') : Silent c c' := by
  refine h.mono fun e hconcerns => Bool.eq_false_iff.mpr fun htells => ?_
  obtain ⟨errno, detail, hrefused, -⟩ := hconcerns htells
  cases hrefused

/-- What a logging handler tells about a refusal is about that refusal. -/
theorem Ack.concerning {α : Type} (a : Ack) (detail : Option String) :
    Concerning (.error (Error.ofCode a.code detail) : Except Error α) c
      (c.acknowledge .logging a) := by
  refine .acknowledge fun e he htells => ?_
  obtain ⟨hfailed, text, rfl⟩ := eq_kernelError he htells
  exact Event.concerns_of_code rfl rfl hfailed

/-! ## Exchanges -/

theorem Exchange.Closes.concerning {x : Exchange} {result : Except Error (Option Bytes)}
    (h : x.Closes c c' result) (hlogging : x.handler = .logging) : Concerning result c c' := by
  cases h with
  | uncoded silent => exact .of_silent silent
  | refused header silent failed =>
    rename_i c₁ a
    let result : Except Error (Option Bytes) := .error (Error.ofCode a.code a.text)
    have hrefused : Concerning result c₁ (x.reportRefusal header a c₁) := by
      unfold reportRefusal
      rw [hlogging]
      split
      · exact .refl _ _
      · dsimp only
        split
        · exact a.concerning _
        · exact (a.concerning _).trans (.single fun _ => Event.concerns_of_code rfl rfl failed)
    exact (Concerning.of_silent silent).trans hrefused

/-- An exchange with a logging handler tells codes only about its result. -/
theorem Connection.exchange_concerning {σ : Type} [Transport σ] (requests : List Draft)
    (wantsAnswer quiet : Bool) (c : Connection σ) :
    let run := exchange requests wantsAnswer quiet .logging c
    Concerning run.1 c.state run.2.state := by
  intro run
  obtain ⟨_, -, -, hsilent⟩ | hclosed := exchange_closes requests wantsAnswer quiet .logging c
  · exact .of_silent hsilent
  · exact hclosed.concerning rfl

/-! ## Dumps -/

namespace Dump

variable {β : Type} {k : Consumer β} {ks : List (Consumer β)}

/-- What is told about an ERROR is about the failure that the dump comes to. -/
theorem onError_concerning (hlogging : c.handler = .logging) (h : Header) (payload : Bytes) :
    Concerning (onError c h payload).1 c (onError c h payload).2 := by
  unfold onError
  split
  · exact .single fun htells => by cases htells
  · rename_i reply hreply
    dsimp only
    split
    · exact .single fun htells => by cases htells
    · let result : Except Error Unit :=
        .error (Error.ofCode reply.code ((Ack.ofError h payload).value.bind (·.text)))
      let read := c.report (Ack.ofError h payload).log
      have hread : Concerning result c read :=
        .of_silent (.report (Ack.log_ofError_silent h payload))
      have htold (c₁ : Conversation) :
          Concerning result c₁ (c₁.report [.dumpRefused (Error.number reply.code)]) :=
        .single fun _ => Event.concerns_dumpRefused
      change Concerning result c _
      split
      · exact hread
      · cases hack : (Ack.ofError h payload).value with
        | none => exact hread.trans (htold read)
        | some a =>
          have hheard : Concerning result read (read.acknowledge .logging a) := by
            have hcode := Ack.code_ofError hreply hack
            change Concerning (.error (Error.ofCode reply.code _)) _ _
            rw [← hcode]
            exact a.concerning _
          have hhandler : read.handler = .logging := hlogging
          dsimp only
          rw [hhandler]
          split
          · exact hread.trans hheard
          · exact (hread.trans hheard).trans (htold _)

theorem doneResult_eq_ok {m : Message} :
    doneResult m = .ok () ↔ 4 ≤ m.payload.length ∧ 0 ≤ m.code := by
  unfold doneResult
  split
  · rename_i hshort
    exact iff_of_false (fun h => by cases h) fun h => by omega
  · rename_i hlong
    split
    · rename_i hfine
      exact iff_of_true rfl ⟨by omega, hfine⟩
    · rename_i hnegative
      exact iff_of_false (fun h => by cases h) fun h => hnegative h.2

/-- A handler that is told of DONE tells its code, and only if that is not zero. -/
theorem reported_heard (hlogging : c.handler = .logging) {m : Message} {front rest : Bytes}
    (hsplit : Wire.split? 4 m.payload = some (front, rest)) :
    let said := Ack.ofDone m.header m.payload
    let read := c.report said.log
    Reported (fun e => e.tellsCode = true → m.code ≠ 0 ∧ ∃ text, e = .kernelError text m.code) c
      (said.value.elim read (read.acknowledge c.handler)) := by
  intro said read
  have hread : Silent c read := .report (Ack.log_ofDone_silent m.header m.payload)
  have hbefore : Reported (fun e => e.tellsCode = true →
      m.code ≠ 0 ∧ ∃ text, e = .kernelError text m.code) c read := by
    refine hread.mono fun e hsilent htells => ?_
    rw [hsilent] at htells
    cases htells
  cases hack : said.value with
  | none => exact hbefore
  | some a =>
    have hcode : a.code = m.code :=
      (Ack.code_ofDone hsplit hack).trans (Message.code_of_split? hsplit)
    refine hbefore.trans (.acknowledge fun e he htells => ?_)
    rw [hlogging] at he
    rw [← hcode]
    exact Ack.eq_kernelError he htells

/-- What is told about DONE is about the failure that the dump comes to, or the dump ends well and
it is the kernel's text and a positive code. -/
theorem onDone_concerning (hlogging : c.handler = .logging) (m : Message) :
    Reported (fun e => e.tellsCode = true → e.Concerns (doneResult m) ∨
        doneResult m = .ok () ∧ 0 < m.code ∧ ∃ text, e = .kernelError text m.code)
      c (onDone c m.header m.payload).2 := by
  cases hsplit : Wire.split? 4 m.payload with
  | none =>
    have hstate : (onDone c m.header m.payload).2 = c.report [.shortDone] := by
      unfold onDone
      rw [hsplit]
    rw [hstate]
    exact .single fun htells => by cases htells
  | some parts =>
    obtain ⟨front, rest⟩ := parts
    have hlength := Wire.length_of_split? hsplit
    have hheard := reported_heard hlogging hsplit
    have hstate := onDone_state (c := c) (h := m.header) hsplit
    dsimp only at hheard hstate
    rw [Message.code_of_split? hsplit] at hstate
    generalize (Ack.ofDone m.header m.payload).value.elim _ _ = heard at hheard hstate
    by_cases hfine : 0 ≤ m.code
    · rw [hstate, if_pos (Or.inl hfine)]
      refine hheard.mono fun e htold htells => .inr ?_
      obtain ⟨hcoded, htext⟩ := htold htells
      exact ⟨doneResult_eq_ok.mpr ⟨by omega, hfine⟩, Int32.lt_of_le_of_ne hfine hcoded.symm, htext⟩
    · have hresult : doneResult m = .error (Error.ofCode m.code
          ((Ack.ofDone m.header m.payload).value.bind (·.text))) := by
        unfold doneResult
        rw [if_neg (by omega), if_neg hfine]
        rfl
      have hfailed : Concerning (doneResult m) c heard := by
        refine hheard.mono fun e htold htells => ?_
        obtain ⟨hcoded, text, rfl⟩ := htold htells
        rw [hresult]
        exact Event.concerns_of_code rfl rfl hcoded
      have hall : Concerning (doneResult m) c (onDone c m.header m.payload).2 := by
        rw [hstate]
        split
        · exact hfailed
        · refine hfailed.trans (.report fun e he _ => ?_)
          rw [hresult]
          exact Event.concerns_of_doneReport he
      exact hall.mono fun e hconcerns htells => .inl (hconcerns htells)

/-- How a dump that nobody but the kernel tells codes in closes, if it comes to a good end: with a
DONE whose text is told, or without a word about a code. -/
theorem Closes.told_iff {ms : List Message} (h : Closes ks c ms c' (.ok ()))
    (hlogging : c.handler = .logging) (hreticent : ∀ k ∈ ks, Reticent k) :
    Told c c' ↔ ∃ m, ending? c.port c.dumpSeq ms = some m ∧ m.header.isDone = true ∧
      m.voiced = true := by
  have hcalm {c₁ : Conversation} (h : SilentBut ks c c₁) : Silent c c₁ := by
    refine h.mono fun e hsaid => Bool.eq_false_iff.mpr fun htells => ?_
    obtain ⟨k, hk, m, memory, he⟩ := hsaid htells
    rw [hreticent k hk m memory e he] at htells
    cases htells
  generalize hresult : (Except.ok () : Except Error Unit) = result at h
  cases h with
  | faulty => cases hresult
  | declined => cases hresult
  | @error k m c₁ _ silent settled ending kind =>
    obtain ⟨-, -, -, -, -, hhandler⟩ := Conversation.eq_of_settled settled
    have hacted :=
      onError_concerning (hhandler.trans hlogging) (m.clearing k.clears).header m.payload
    rw [← hresult] at hacted
    refine iff_of_false ((hcalm silent).trans hacted.silent).not_told ?_
    rintro ⟨m', hm', hdone, -⟩
    obtain rfl := Option.some.inj (ending.symm.trans hm')
    rw [kind] at hdone
    cases hdone
  | @done m c₁ _ _ silent settled ending kind state =>
    obtain ⟨-, -, -, -, -, hhandler⟩ := Conversation.eq_of_settled settled
    obtain ⟨-, hfine⟩ := doneResult_eq_ok.mp ((onDone_result c₁ m).symm.trans hresult.symm)
    have htold := told_onDone (hhandler.trans hlogging) (.inl hfine)
    have hacted := onDone_concerning (hhandler.trans hlogging) m
    have hwhole : Told c (onDone c₁ m.header m.payload).2 ↔ m.voiced = true := by
      rw [Conversation.told_trans (hcalm silent) hacted, htold,
        or_iff_right (hcalm silent).not_told]
    have hends : (∃ m, ending? c.port c.dumpSeq ms = some m ∧ m.header.isDone = true ∧
        m.voiced = true) ↔ m.voiced = true := by
      refine ⟨?_, fun hvoiced => ⟨m, ending, kind, hvoiced⟩⟩
      rintro ⟨m', hm', -, hvoiced⟩
      rwa [Option.some.inj (ending.symm.trans hm')]
    rw [hends, ← hwhole]
    obtain rfl | rfl := state
    · rfl
    · have hsaid : Reported (fun _ => True) c (onDone c₁ m.header m.payload).2 :=
        ((hcalm silent).mono fun _ _ => trivial).trans (hacted.mono fun _ _ => trivial)
      have hword : Silent (onDone c₁ m.header m.payload).2
          ((onDone c₁ m.header m.payload).2.report [.dumpInterrupted]) := .single rfl
      rw [Conversation.told_trans hsaid hword, or_iff_left hword.not_told]

/-- Why a code is told in a dump that has this end and comes to this result: a consumer tells it,
the dump fails with it, or the dump ends well and it comes, being positive, with the text of DONE.
-/
def Accounted (ks : List (Consumer β)) (end? : Option Message) (result : Except Error Unit)
    (e : Event) : Prop :=
  Said ks e ∨ e.Concerns result ∨
    result = .ok () ∧ ∃ m text, end? = some m ∧ m.header.isDone = true ∧ 0 < m.code ∧
      e = .kernelError text m.code

/-- All codes that are told when a dump closes are accounted for. -/
theorem Closes.accounted {ms : List Message} {result : Except Error Unit}
    (h : Closes ks c ms c' result) (hlogging : c.handler = .logging) :
    Reported (fun e => e.tellsCode = true →
      Accounted ks (ending? c.port c.dumpSeq ms) result e) c c' := by
  have hsaid {c₁ : Conversation} (h : SilentBut ks c c₁) : Reported (fun e => e.tellsCode = true →
      Accounted ks (ending? c.port c.dumpSeq ms) result e) c c₁ :=
    h.mono fun _ hsaid htells => .inl (hsaid htells)
  cases h with
  | faulty silent => exact hsaid silent
  | declined _ silent => exact hsaid silent
  | @error k m c₁ _ silent settled =>
    obtain ⟨-, -, -, -, -, hhandler⟩ := Conversation.eq_of_settled settled
    have hacted :=
      onError_concerning (hhandler.trans hlogging) (m.clearing k.clears).header m.payload
    exact (hsaid silent).trans (hacted.mono fun _ hconcerns h => .inr (.inl (hconcerns h)))
  | @done m c₁ _ _ silent settled ending kind state =>
    obtain ⟨-, -, -, -, -, hhandler⟩ := Conversation.eq_of_settled settled
    have hacted := onDone_concerning (hhandler.trans hlogging) m
    rw [onDone_result] at hsaid ⊢
    have hended : Reported (fun e => e.tellsCode = true →
        Accounted ks (ending? c.port c.dumpSeq ms) (doneResult m) e) c
        (onDone c₁ m.header m.payload).2 := by
      refine (hsaid silent).trans (hacted.mono fun e htold htells => ?_)
      obtain hconcerns | ⟨hfine, hpositive, text, hword⟩ := htold htells
      · exact .inr (.inl hconcerns)
      · exact .inr (.inr ⟨hfine, m, text, ending, kind, hpositive, hword⟩)
    obtain rfl | rfl := state
    · exact hended
    · exact hended.trans (.single fun htells => by cases htells)

end Dump

namespace Connection

variable {σ : Type} [Transport σ]

theorem requestAll_concerning {c : Connection σ} (hlogging : c.state.handler = .logging)
    (requests : List Draft) :
    Concerning (requestAll requests c).1 c.state (requestAll requests c).2.state := by
  have hconcerns := exchange_concerning requests false c.state.config.quiet c
  rw [requestAll_run, hlogging]
  exact hconcerns.carried fun e he => by dsimp only; rw [he]; rfl

theorem ask_concerning {c : Connection σ} (hlogging : c.state.handler = .logging) (d : Draft) :
    Concerning (ask d c).1 c.state (ask d c).2.state := by
  have hconcerns := exchange_concerning [d] true c.state.config.quiet c
  rw [ask_run, hlogging]
  exact hconcerns.carried fun e he => by dsimp only; rw [he]; rfl

/-- **Codes are told in calls that fail with them, and the number in the report is that of the
failure if the code is negative.** A conversation that writes the kernel's text to the log tells
codes about a request, requests sent together or a question only if that fails with the code, and
shows the number of the failure if the code is negative and not the least there is, and only then.
The same holds for a dump, apart from what its consumers tell, and apart from a dump that ends well:
that tells a code exactly if the DONE that ends it comes with a text about a code, which is then
positive. -/
theorem log_agrees_with_outcome {c : Connection σ} (hlogging : c.state.handler = .logging) :
    (∀ requests, Concerning (requestAll requests c).1 c.state (requestAll requests c).2.state) ∧
    (∀ d, Concerning (request d c).1 c.state (request d c).2.state) ∧
    (∀ d, Concerning (ask d c).1 c.state (ask d c).2.state) ∧
    ∀ {β : Type} (ks : List (Consumer β)) (memory : β),
      let run := readDump ks memory c
      let arrivals := (Transport.arrivals c.state.config.timeout c.endpoint).1
      let end? := Dump.ending? c.state.port c.state.dumpSeq (arrivals.flatMap Datagram.messages)
      Reported (fun e => e.tellsCode = true → Dump.Accounted ks end? run.1.1 e) c.state
          run.2.state ∧
        ((∀ k ∈ ks, Dump.Reticent k) → run.1.1 = .ok () →
          (Told c.state run.2.state ↔
            ∃ m, end? = some m ∧ m.header.isDone = true ∧ m.voiced = true)) := by
  refine ⟨requestAll_concerning hlogging, fun d => requestAll_concerning hlogging [d],
    ask_concerning hlogging, fun {β} ks memory => ?_⟩
  intro run arrivals end?
  obtain ⟨e, hfailed, -, hsilent⟩ | hclosed := readDump_closes ks memory c
  · refine ⟨hsilent.mono fun _ hsaid htells => .inl (hsaid htells), fun _ hok => ?_⟩
    cases hfailed.symm.trans hok
  · refine ⟨hclosed.accounted hlogging, fun hreticent hok => ?_⟩
    change Dump.Closes ks c.state _ run.2.state run.1.1 at hclosed
    rw [hok] at hclosed
    exact hclosed.told_iff hlogging hreticent

open Dump (sampleArrivals sampleTaker)

/-- DONE that ends dump 7 with a positive code and a text. -/
def sampleEnding : Packet :=
  .fitting ⟨0, MessageType.done, MessageFlag.multi ||| MessageFlag.ackAttributes, 7, 42⟩
    ([22, 0, 0, 0] ++ sampleText) (by decide)

theorem reticent_sampleTaker (clears : UInt16) : Dump.Reticent (sampleTaker clears) := by
  intro m memory e he
  cases he

/-- A request that is refused with a text, and a dump that a text ends well. -/
theorem log_agrees_with_outcome_sample :
    let arriving (p : Packet) := sampleArrivals [{ data := Packet.records [p] }] none
    let requested := request (Draft.new 16 1) (arriving sampleRefusal)
    let dumped := readDump [sampleTaker 0] () (arriving sampleEnding)
    (∀ p, (arriving p).state.handler = .logging) ∧
      .kernelError "no" (-1) ∈ requested.2.state.log ∧
      (Event.kernelError "no" (-1)).Concerns requested.1 ∧
      dumped.1.1 = .ok () ∧ Told (arriving sampleEnding).state dumped.2.state := by
  intro arriving requested dumped
  have hlogging : ∀ p, (arriving p).state.handler = .logging := fun _ => rfl
  have htold : .kernelError "no" (-1) ∈ requested.2.state.log := by decide +kernel
  have hfine : dumped.1.1 = .ok () := eq_ok_of_isOk (by decide +kernel)
  refine ⟨hlogging, htold, ?_, hfine, ?_⟩
  · obtain ⟨-, hrequest, -⟩ := log_agrees_with_outcome (hlogging sampleRefusal)
    obtain ⟨events, hlog, hconcerns⟩ := hrequest (Draft.new 16 1)
    change requested.2.state.log = _ at hlog
    rw [hlog] at htold
    exact hconcerns _ htold rfl
  · obtain ⟨-, -, -, hdump⟩ := log_agrees_with_outcome (hlogging sampleEnding)
    obtain ⟨-, hiff⟩ := hdump [sampleTaker 0] ()
    have hreticent := List.forall_mem_singleton.mpr (reticent_sampleTaker 0)
    refine (hiff hreticent hfine).mpr ⟨sampleEnding.message 0, ?_, rfl, by decide +kernel⟩
    decide +kernel

/-- A request that is refused with a positive code is reported with another number than it fails
with, and a dump that ends well tells a code. -/
theorem log_disagrees_with_outcome :
    let arriving (p : Packet) := sampleArrivals [{ data := Packet.records [p] }] none
    let requested := request (Draft.new 16 1) (arriving (sampleAck 8 5))
    let dumped := readDump [sampleTaker 0] () (arriving sampleEnding)
    requested.1 = .error (.kernel 5 none) ∧ .requestRefused 5 8 ∈ requested.2.state.log ∧
      ¬ (Event.requestRefused 5 8).Shows 5 ∧
      dumped.1.1 = .ok () ∧ .kernelError "no" 22 ∈ dumped.2.state.log := by
  intro arriving requested dumped
  refine ⟨eq_error_of_failure? (by decide +kernel), by decide +kernel, fun h => ?_,
    eq_ok_of_isOk (by decide +kernel), by decide +kernel⟩
  have hshown : (Event.requestRefused 5 8).fields.lookup "errno" = some (.number (-5)) := by decide
  cases hshown.symm.trans h

end Connection
end Netlink
