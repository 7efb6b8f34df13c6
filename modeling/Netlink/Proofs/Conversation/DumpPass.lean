import Netlink.Proofs.Conversation.DumpStream

/-! # A pass over a dump

What a dump has made of its datagrams when it ends well is read off their messages. Each datagram
but the last shows no message that ends the dump, and the last shows one: DONE, which every walk
comes to, or an ERROR that means no failure, which the first walk ends with. -/

namespace Netlink

/-- The complete messages of a datagram with its sender. -/
def Datagram.messages (d : Datagram) : List Message :=
  (Frame.walk d.data).frames.map (Frame.message d.sender)

namespace Dump

/-- The messages of the dump up to the first that ends it, that one included. -/
def seen (port number : UInt32) (ms : List Message) : List Message :=
  objects port number ms ++ (ending? port number ms).toList

section Streams

variable {port number : UInt32} {ms : List Message}

theorem objects_append (h : ending? port number ms = none) (later : List Message) :
    objects port number (ms ++ later) = objects port number ms ++ objects port number later := by
  have hgoing : ∀ m ∈ ms.filter (related port number), (!ends m) = true := by
    intro m hm
    simpa using List.find?_eq_none.mp h m hm
  have hall : objects port number ms = ms.filter (related port number) := by
    rw [objects, ← List.append_nil (ms.filter _), List.takeWhile_append_of_pos hgoing,
      List.takeWhile_nil]
  rw [hall, objects, List.filter_append, List.takeWhile_append_of_pos hgoing, objects]

theorem ending?_append (h : ending? port number ms = none) (later : List Message) :
    ending? port number (ms ++ later) = ending? port number later := by
  rw [ending?, List.filter_append, List.find?_append]
  rw [ending?] at h
  rw [h]
  rfl

theorem ending?_append_of_some {m : Message} (h : ending? port number ms = some m)
    (later : List Message) : ending? port number (ms ++ later) = some m := by
  rw [ending?, List.filter_append, List.find?_append]
  rw [ending?] at h
  rw [h]
  rfl

/-- The message at the front ends the dump, or the dump ends as it does without it. -/
theorem ending?_cons (m : Message) :
    ending? port number (m :: ms) =
      if related port number m && ends m then some m else ending? port number ms := by
  rw [ending?, List.filter_cons]
  cases related port number m with
  | false => rfl
  | true =>
    rw [if_pos rfl, List.find?_cons, Bool.true_and]
    cases ends m <;> rfl

theorem seen_append (h : ending? port number ms = none) (later : List Message) :
    seen port number (ms ++ later) = objects port number ms ++ seen port number later := by
  rw [seen, objects_append h, ending?_append h, List.append_assoc, seen]

/-- A message that is not of the dump is passed over; one that ends it is the last to be seen. -/
theorem seen_cons (m : Message) :
    seen port number (m :: ms) =
      if related port number m then
        if ends m then [m] else m :: seen port number ms
      else seen port number ms := by
  cases hrelated : related port number m with
  | false => simp [seen, objects, ending?, hrelated]
  | true => cases hends : ends m <;> simp [seen, objects, ending?, hrelated, hends]

end Streams

variable {β : Type} {k : Consumer β} {sender : UInt32} {fs : List Frame} {p q : Progress β}

/-! ## The message at the front of a walk -/

section Front

variable {f : Frame} {memory : β} {log : List Event}

theorem deliver_foreign
    (hforeign : related p.state.port p.state.dumpSeq (f.message sender) = false) :
    deliver k sender (f :: fs) p =
      deliver k sender fs ⟨p.state.report
        [.foreignToDump sender f.header.pid f.header.seq p.state.dumpSeq], p.memory, p.found⟩ := by
  have hnot : belongs p.state sender (f.header.clearing k.clears) = false := hforeign
  rw [deliver, hnot]
  rfl

variable (hours : related p.state.port p.state.dumpSeq (f.message sender) = true)

include hours

theorem deliver_done (hdone : f.header.isDone = true) :
    deliver k sender (f :: fs) p =
      .atDone { p with found := {
        interrupted := p.found.interrupted || (f.header.clearing k.clears).isInterrupted
        done := p.found.done <|> some (f.header, f.payload) } } := by
  have hbelongs : belongs p.state sender (f.header.clearing k.clears) = true := hours
  have hcleared : (f.header.clearing k.clears).isDone = true := hdone
  rw [deliver, hbelongs, hcleared]
  rfl

variable (hgoing : f.header.isDone = false)

include hgoing

theorem deliver_error (herror : f.header.isError = true) :
    deliver k sender (f :: fs) p =
      .over (onError p.state (f.header.clearing k.clears) f.payload).2 p.memory
        (onError p.state (f.header.clearing k.clears) f.payload).1 := by
  have hbelongs : belongs p.state sender (f.header.clearing k.clears) = true := hours
  have hcleared : (f.header.clearing k.clears).isDone = false := hgoing
  have hfailed : (f.header.clearing k.clears).isError = true := herror
  rw [deliver, hbelongs, hcleared, hfailed]
  rfl

variable (hobject : f.header.isError = false)

include hobject

theorem deliver_object :
    deliver k sender (f :: fs) p =
      match k.accept ((f.message sender).clearing k.clears) p.memory with
      | ⟨(.error e, memory), log⟩ => .over (p.state.report log) memory (.error e)
      | ⟨(.ok (), memory), log⟩ =>
        deliver k sender fs ⟨p.state.report log, memory, { p.found with
          interrupted := p.found.interrupted || (f.header.clearing k.clears).isInterrupted }⟩ := by
  have hbelongs : belongs p.state sender (f.header.clearing k.clears) = true := hours
  have hcleared : (f.header.clearing k.clears).isDone = false := hgoing
  have hordinary : (f.header.clearing k.clears).isError = false := hobject
  obtain ⟨⟨⟨result, memory⟩, log⟩, haccept⟩ :
    ∃ x, k.accept ((f.message sender).clearing k.clears) p.memory = x := ⟨_, rfl⟩
  have hsame : k.accept ⟨sender, f.header.clearing k.clears, f.bytes⟩ p.memory =
    ⟨(result, memory), log⟩ := haccept
  rw [deliver, hbelongs, hcleared, hordinary, haccept]
  simp only [Bool.not_true, Bool.false_eq_true, if_false, hsame]
  cases result <;> rfl

end Front

/-! ## One walk -/

def Walked.memory : Walked β → β
  | .through p | .atDone p => p.memory
  | .over _ memory _ => memory

def Walked.well : Walked β → Prop
  | .over _ _ (.error _) => False
  | _ => True

/-- A walk that does not fail hands over the messages of the dump, and how it ends is told by the
message that ends the dump, if there is one. -/
theorem deliver_well (h : (deliver k sender fs p).well) :
    let ms := fs.map (Frame.message sender)
    let wanted := objects p.state.port p.state.dumpSeq ms
    k.hand (wanted.map (Message.clearing k.clears)) p.memory =
        (.ok (), (deliver k sender fs p).memory) ∧
      match ending? p.state.port p.state.dumpSeq ms, deliver k sender fs p with
      | none, .through q => q.found.done = p.found.done
      | some m, .atDone q =>
        m.header.isDone = true ∧ q.found.done = (p.found.done <|> some (m.header, m.payload))
      | some m, .over _ _ _ => m.header.isDone = false
      | _, _ => False := by
  intro ms wanted
  have hagrees := deliver_agrees k sender fs p
  rw [follow_eq] at hagrees
  generalize deliver k sender fs p = walked at h hagrees ⊢
  rcases hhand : k.hand (wanted.map (Message.clearing k.clears)) p.memory with ⟨e | _, memory⟩
  · -- a refusal would have been the end of the walk
    rw [hhand] at hagrees
    rcases walked with q | q | ⟨c, memory', result⟩
    · exact hagrees.elim
    · exact hagrees.elim
    · rw [hagrees.2] at h
      exact h.elim
  · rw [hhand] at hagrees
    cases hending : ending? p.state.port p.state.dumpSeq ms with
    | none =>
      rw [hending] at hagrees
      rcases walked with q | q | ⟨c, memory', result⟩
      · exact ⟨by rw [← hagrees.1]; rfl, hagrees.2⟩
      · exact hagrees.elim
      · exact hagrees.elim
    | some m =>
      rw [hending] at hagrees
      -- clearing flags does not change what kind of message it is
      have hkind : (if m.header.isDone = true then m else m.clearing k.clears).header.isDone =
          m.header.isDone := by
        split <;> rfl
      rcases walked with q | q | ⟨c, memory', result⟩
      · exact hagrees.elim
      · obtain ⟨hdone, hmemory, hfound⟩ := hagrees
        rw [hkind] at hdone
        rw [hdone] at hfound
        exact ⟨by rw [← hmemory]; rfl, hdone, hfound⟩
      · obtain ⟨herror, hmemory, -⟩ := hagrees
        rw [hkind] at herror
        exact ⟨by rw [← hmemory]; rfl, herror⟩

/-- What a walk has come upon when the dump goes on after it. -/
def Walked.progress? : Walked β → Option (Progress β)
  | .through p | .atDone p => some p
  | .over .. => none

theorem Walked.eq_of_progress? {walked : Walked β} (h : walked.progress? = some q) :
    walked = .through q ∨ walked = .atDone q := by
  rcases walked with p | p | ⟨c, memory, result⟩ <;> cases h
  · exact .inl rfl
  · exact .inr rfl

/-- A walk after which the dump goes on hands over the messages of the dump. Only DONE can have
ended it. -/
theorem deliver_progress (h : (deliver k sender fs p).progress? = some q) :
    let ms := fs.map (Frame.message sender)
    let wanted := objects p.state.port p.state.dumpSeq ms
    let ending := ending? p.state.port p.state.dumpSeq ms
    q.state.bare = p.state.bare ∧
      k.hand (wanted.map (Message.clearing k.clears)) p.memory = (.ok (), q.memory) ∧
      q.found.done = (p.found.done <|> ending.map fun m => (m.header, m.payload)) ∧
      ∀ m, ending = some m → m.header.isDone = true := by
  intro ms wanted ending
  have hbare := deliver_bare k sender fs p
  have hwell : (deliver k sender fs p).well := by
    rcases Walked.eq_of_progress? h with hwalk | hwalk <;> rw [hwalk] <;> trivial
  obtain ⟨hhand, hend⟩ := deliver_well hwell
  rcases Walked.eq_of_progress? h with hwalk | hwalk
  · rw [hwalk] at hbare hhand hend
    cases hending : ending? p.state.port p.state.dumpSeq ms with
    | some m =>
      rw [hending] at hend
      exact hend.elim
    | none =>
      rw [hending] at hend
      refine ⟨hbare, hhand, ?_, fun m hm => ?_⟩
      · simp only [ending, hending, hend, Option.map_none, Option.orElse_eq_orElse,
          Option.orElse_eq_or, Option.or_none]
      · cases hending.symm.trans hm
  · rw [hwalk] at hbare hhand hend
    cases hending : ending? p.state.port p.state.dumpSeq ms with
    | none =>
      rw [hending] at hend
      exact hend.elim
    | some m =>
      rw [hending] at hend
      refine ⟨hbare, hhand, ?_, fun m' hm => ?_⟩
      · simp only [ending, hending, hend.2, Option.map_some]
      · obtain rfl : m = m' := Option.some.inj (hending.symm.trans hm)
        exact hend.1

/-- A walk that ends the dump well has come to an ERROR, and hands over the messages before it. -/
theorem deliver_over {c : Conversation} {memory : β}
    (h : deliver k sender fs p = .over c memory (.ok ())) :
    let ms := fs.map (Frame.message sender)
    let wanted := objects p.state.port p.state.dumpSeq ms
    k.hand (wanted.map (Message.clearing k.clears)) p.memory = (.ok (), memory) ∧
      ∃ m, ending? p.state.port p.state.dumpSeq ms = some m ∧ m.header.isDone = false := by
  intro ms wanted
  have hwell : (deliver k sender fs p).well := by rw [h]; trivial
  obtain ⟨hhand, hend⟩ := deliver_well hwell
  rw [h] at hhand hend
  refine ⟨hhand, ?_⟩
  cases hending : ending? p.state.port p.state.dumpSeq ms with
  | none => rw [hending] at hend; exact hend.elim
  | some m => rw [hending] at hend; exact ⟨m, rfl, hend⟩

/-! ## The walks over a datagram -/

variable {d : Datagram} {ks : List (Consumer β)} {c c' : Conversation} {memory memory' : β}

/-- Walks over a datagram, one for each consumer, after each of which the dump goes on. -/
inductive Walks (d : Datagram) : List (Consumer β) → Progress β → Progress β → Prop
  | nil (p : Progress β) : Walks d [] p p
  | cons {k : Consumer β} {ks : List (Consumer β)} {p p₁ q : Progress β}
      (walk : (deliver k d.sender (Frame.walk d.data).frames p).progress? = some p₁)
      (later : Walks d ks p₁ q) : Walks d (k :: ks) p q

/-- The first walk over a datagram ends the dump, or the other walks go on from where it came to, or
they do not because the datagram is faulty. -/
theorem deliverAll_cons (k : Consumer β) (ks : List (Consumer β)) (d : Datagram) (p : Progress β) :
    let walked := deliver k d.sender (Frame.walk d.data).frames p
    let all := deliverAll d (Frame.walk d.data) (k :: ks) p
    (∃ c memory result, walked = .over c memory result ∧ all = .over c memory result) ∨
      ∃ p₁, walked.progress? = some p₁ ∧
        (all = deliverAll d (Frame.walk d.data) ks p₁ ∨
          ∃ e, (Frame.walk d.data).error? = some e ∧
            all = .over p₁.state p₁.memory (.error e)) := by
  intro walked all
  have hall : all = _ := deliverAll.eq_def d (Frame.walk d.data) (k :: ks) p
  dsimp only at hall
  cases hwalk : deliver k d.sender (Frame.walk d.data).frames p with
  | «over» c memory result =>
    rw [hwalk] at hall
    exact .inl ⟨c, memory, result, hwalk, hall⟩
  | atDone p₁ =>
    rw [hwalk] at hall
    exact .inr ⟨p₁, congrArg Walked.progress? hwalk, .inl hall⟩
  | through p₁ =>
    rw [hwalk] at hall
    refine .inr ⟨p₁, congrArg Walked.progress? hwalk, ?_⟩
    dsimp only at hall
    split at hall
    · rename_i e hfault
      split at hfault
      · cases hfault
      · exact .inr ⟨e, hfault, hall⟩
    · exact .inl hall

theorem walks_of_deliverAll (h : (deliverAll d (Frame.walk d.data) ks p).progress? = some q) :
    Walks d ks p q := by
  induction ks generalizing p with
  | nil =>
    cases h
    exact .nil _
  | cons k ks ih =>
    obtain ⟨c, memory, result, -, hall⟩ | ⟨p₁, hwalk, hall | ⟨e, -, hall⟩⟩ := deliverAll_cons k ks d p
    · rw [hall] at h
      cases h
    · rw [hall] at h
      exact .cons hwalk (ih h)
    · rw [hall] at h
      cases h

/-- Several walks over a datagram come upon the same messages as one. -/
theorem Walks.progress (h : Walks d ks p q) (hsome : ks ≠ []) :
    let ending := ending? p.state.port p.state.dumpSeq d.messages
    q.state.bare = p.state.bare ∧
      q.found.done = (p.found.done <|> ending.map fun m => (m.header, m.payload)) ∧
      ∀ m, ending = some m → m.header.isDone = true := by
  induction h with
  | nil => exact absurd rfl hsome
  | @cons k ks p p₁ q walk later ih =>
    obtain ⟨hbare, -, hfound, hdone⟩ := deliver_progress walk
    obtain ⟨-, hport, -, hnumber, -⟩ := Conversation.eq_of_bare hbare
    cases later with
    | nil => exact ⟨hbare, hfound, hdone⟩
    | cons walk' later' =>
      obtain ⟨hbare', hfound', -⟩ := ih (List.cons_ne_nil _ _)
      rw [hport, hnumber] at hfound'
      refine ⟨hbare'.trans hbare, ?_, hdone⟩
      change p₁.found.done = (p.found.done <|> (ending? _ _ d.messages).map _) at hfound
      rw [hfound', hfound]
      simp only [Option.orElse_eq_orElse, Option.orElse_eq_or, Option.or_assoc, Option.or_self]

/-- Walks that end the dump well have come to an ERROR. -/
theorem ending?_of_deliverAll_over
    (h : deliverAll d (Frame.walk d.data) ks p = .over c memory (.ok ())) :
    ∃ m, ending? p.state.port p.state.dumpSeq d.messages = some m ∧ m.header.isDone = false := by
  induction ks generalizing p with
  | nil => cases h
  | cons k ks ih =>
    obtain ⟨c₁, memory₁, result, hwalk, hall⟩ | ⟨p₁, hwalk, hall | ⟨e, -, hall⟩⟩ :=
      deliverAll_cons k ks d p
    · rw [hall] at h
      rw [h] at hwalk
      exact (deliver_over hwalk).2
    · -- a walk before the one that ends the dump sees the same messages
      obtain ⟨-, hport, -, hnumber, -⟩ := Conversation.eq_of_bare (deliver_progress hwalk).1
      rw [hall] at h
      rw [← hport, ← hnumber]
      exact ih h
    · rw [hall] at h
      cases h

/-- Only the first walk over a datagram can end the dump well, for it comes upon the ERROR that the
others would come upon. -/
theorem deliverAll_over (h : deliverAll d (Frame.walk d.data) ks p = .over c memory (.ok ())) :
    ∃ k rest, ks = k :: rest ∧
      deliver k d.sender (Frame.walk d.data).frames p = .over c memory (.ok ()) := by
  obtain ⟨m, hending, herror⟩ := ending?_of_deliverAll_over h
  cases ks with
  | nil => cases h
  | cons k rest =>
    refine ⟨k, rest, rfl, ?_⟩
    obtain ⟨c₁, memory₁, result, hwalk, hall⟩ | ⟨p₁, hwalk, -⟩ := deliverAll_cons k rest d p
    · rw [hwalk, ← hall, h]
    · have hdone := (deliver_progress hwalk).2.2.2 m hending
      rw [herror] at hdone
      cases hdone

/-! ## One datagram -/

/-- What the dump makes of a datagram when it goes on after all the walks over it. -/
def conclude (ks : List (Consumer β)) (d : Datagram) (p : Progress β) : Verdict β Unit :=
  match p.found.done with
  | some (h, payload) =>
    match onDone p.state h payload with
    | (.error e, c) => .finished c p.memory (.error e)
    | (.ok (), c) =>
      .finished (if p.found.interrupted then c.report [.dumpInterrupted] else c) p.memory (.ok ())
  | none =>
    let w := Frame.walk d.data
    if d.truncated then .more (p.state.report [.cutShort d.data.length]) p.memory
    else if ks.isEmpty || w.rest.isEmpty then .more p.state p.memory
    else .finished p.state p.memory (.error (.framing (.remnant w.rest.length)))

theorem step_eq {c₀ : Conversation} (hrecord : c.record d.data = (.ok (), c₀)) :
    step ks d c memory =
      match deliverAll d (Frame.walk d.data) ks ⟨c₀, memory, {}⟩ with
      | .over c memory result => .finished c memory result
      | .through p | .atDone p => conclude ks d p := by
  unfold step
  rw [hrecord]
  rfl

theorem step_of_progress {c₀ : Conversation} (hrecord : c.record d.data = (.ok (), c₀))
    (h : (deliverAll d (Frame.walk d.data) ks ⟨c₀, memory, {}⟩).progress? = some p) :
    step ks d c memory = conclude ks d p := by
  rw [step_eq hrecord]
  rcases Walked.eq_of_progress? h with hwalks | hwalks
  · rw [hwalks]
  · rw [hwalks]

/-- The dump ends with one of the walks over a datagram, or something is made of what they all have
come upon. -/
theorem step_cases {c₀ : Conversation} (hrecord : c.record d.data = (.ok (), c₀))
    (ks : List (Consumer β)) (memory : β) :
    (∃ c₁ memory₁ result,
      deliverAll d (Frame.walk d.data) ks ⟨c₀, memory, {}⟩ = .over c₁ memory₁ result ∧
        step ks d c memory = .finished c₁ memory₁ result) ∨
      ∃ p, (deliverAll d (Frame.walk d.data) ks ⟨c₀, memory, {}⟩).progress? = some p ∧
        step ks d c memory = conclude ks d p := by
  cases hwalks : (deliverAll d (Frame.walk d.data) ks ⟨c₀, memory, {}⟩).progress? with
  | some p => exact .inr ⟨p, rfl, step_of_progress hrecord hwalks⟩
  | none =>
    rw [step_eq hrecord]
    rcases hover : deliverAll d (Frame.walk d.data) ks ⟨c₀, memory, {}⟩ with
      p | p | ⟨c₁, memory₁, result⟩
    · rw [hover] at hwalks
      cases hwalks
    · rw [hover] at hwalks
      cases hwalks
    · exact .inl ⟨c₁, memory₁, result, rfl, rfl⟩

theorem bare_onDone (c : Conversation) (h : Header) (payload : Bytes) :
    (onDone c h payload).2.bare = c.bare := by
  unfold onDone
  split
  · rfl
  · dsimp only
    cases (Ack.ofDone h payload).value with
    | none =>
      dsimp only
      split
      · rfl
      · dsimp only
        split <;> rfl
    | some a =>
      dsimp only
      split
      · rfl
      · dsimp only
        split <;> rfl

/-- A datagram changes nothing but what it is recorded to, whatever becomes of the dump. -/
theorem bare_step (ks : List (Consumer β)) (d : Datagram) (c : Conversation) (memory : β) :
    (step ks d c memory).state.bare = (c.record d.data).2.bare := by
  have hconclude : ∀ p : Progress β, (conclude ks d p).state.bare = p.state.bare := by
    intro p
    unfold conclude
    cases p.found.done with
    | some found =>
      have hended := bare_onDone p.state found.1 found.2
      dsimp only
      generalize onDone p.state found.1 found.2 = ended at hended ⊢
      obtain ⟨e | _, c₁⟩ := ended
      · exact hended
      · dsimp only
        split <;> exact hended
    | none =>
      dsimp only
      split
      · rfl
      · split <;> rfl
  rcases hrecord : c.record d.data with ⟨e | _, c₀⟩
  · unfold step
    rw [hrecord]
    rfl
  · have hwalks := deliverAll_bare d (Frame.walk d.data) ks ⟨c₀, memory, {}⟩
    obtain ⟨c₁, memory₁, result, hover, hstep⟩ | ⟨p, hprogress, hstep⟩ :=
      step_cases hrecord ks memory
    · rw [hover] at hwalks
      rw [hstep]
      exact hwalks
    · rw [hstep]
      rcases Walked.eq_of_progress? hprogress with hwalk | hwalk
      · rw [hwalk] at hwalks
        exact (hconclude p).trans hwalks
      · rw [hwalk] at hwalks
        exact (hconclude p).trans hwalks

theorem conclude_more (h : conclude ks d p = .more c' memory') :
    p.found.done = none ∧ memory' = p.memory ∧
      (c' = p.state ∨ c' = p.state.report [.cutShort d.data.length]) := by
  unfold conclude at h
  split at h
  · split at h <;> cases h
  · rename_i hnone
    refine ⟨hnone, ?_⟩
    dsimp only at h
    split at h
    · cases h
      exact ⟨rfl, .inr rfl⟩
    · split at h
      · cases h
        exact ⟨rfl, .inl rfl⟩
      · cases h

theorem conclude_ok (h : conclude ks d p = .finished c' memory' (.ok ())) :
    ∃ header payload c₁, p.found.done = some (header, payload) ∧
      onDone p.state header payload = (.ok (), c₁) ∧ memory' = p.memory ∧
      c' = if p.found.interrupted then c₁.report [.dumpInterrupted] else c₁ := by
  unfold conclude at h
  split at h
  · rename_i header payload hsome
    split at h
    · cases h
    · rename_i c₁ hdone
      cases h
      exact ⟨header, payload, c₁, hsome, hdone, rfl, rfl⟩
  · dsimp only at h
    split at h
    · cases h
    · split at h <;> cases h

/-- The dump ends as a failure with a datagram that cannot be recorded. -/
theorem record_or_fail (ks : List (Consumer β)) (d : Datagram) (c : Conversation) (memory : β) :
    (∃ c₀, c.record d.data = (.ok (), c₀)) ∨
      ∃ c₀ e, step ks d c memory = .finished c₀ memory (.error e) := by
  rcases hrecord : c.record d.data with ⟨e | _, c₀⟩
  · right
    refine ⟨c₀, e, ?_⟩
    unfold step
    rw [hrecord]
  · exact .inl ⟨c₀, rfl⟩

/-- The walks over a datagram after which the dump goes on have found the message that ends it, if
it is there. -/
theorem found_of_deliverAll (hsome : ks ≠ []) {c₀ : Conversation}
    (hrecord : c.record d.data = (.ok (), c₀))
    (h : (deliverAll d (Frame.walk d.data) ks ⟨c₀, memory, {}⟩).progress? = some p) :
    p.found.done =
        (ending? c.port c.dumpSeq d.messages).map (fun m => (m.header, m.payload)) ∧
      ∀ m, ending? c.port c.dumpSeq d.messages = some m → m.header.isDone = true := by
  obtain ⟨-, hport, hnumber⟩ := Conversation.eq_of_record hrecord
  obtain ⟨-, hfound, hdone⟩ := (walks_of_deliverAll h).progress hsome
  dsimp only at hfound hdone
  rw [hport, hnumber] at hfound hdone
  refine ⟨?_, hdone⟩
  rw [hfound]
  rfl

/-- The dump goes on after a datagram that is recorded and shows no message that ends it. -/
theorem step_more (hsome : ks ≠ []) (h : step ks d c memory = .more c' memory') :
    ending? c.port c.dumpSeq d.messages = none ∧
      ∃ c₀ p, c.record d.data = (.ok (), c₀) ∧ Walks d ks ⟨c₀, memory, {}⟩ p ∧
        memory' = p.memory ∧ (c' = p.state ∨ c' = p.state.report [.cutShort d.data.length]) := by
  obtain ⟨c₀, hrecord⟩ | ⟨c₀, e, hfailed⟩ := record_or_fail ks d c memory
  case inr =>
    rw [hfailed] at h
    cases h
  obtain ⟨c₁, memory₁, result, -, hstep⟩ | ⟨p, hwalks, hstep⟩ := step_cases hrecord ks memory
  · rw [hstep] at h
    cases h
  · rw [hstep] at h
    obtain ⟨hnone, hmore⟩ := conclude_more h
    have hfound := (found_of_deliverAll hsome hrecord hwalks).1
    rw [hnone] at hfound
    exact ⟨Option.map_eq_none_iff.mp hfound.symm, c₀, p, hrecord, walks_of_deliverAll hwalks, hmore⟩

/-- How a dump ends well with a datagram that shows the message `m`: every walk comes to DONE, or
the first walk to an ERROR that means no failure. -/
def EndsWith (ks : List (Consumer β)) (d : Datagram) (start : Progress β) (m : Message)
    (c' : Conversation) (memory' : β) : Prop :=
  match m.header.isDone with
  | true => ∃ p c₁, Walks d ks start p ∧ memory' = p.memory ∧
      onDone p.state m.header m.payload = (.ok (), c₁) ∧
      c' = if p.found.interrupted then c₁.report [.dumpInterrupted] else c₁
  | false => ∃ k rest, ks = k :: rest ∧
      deliver k d.sender (Frame.walk d.data).frames start = .over c' memory' (.ok ())

/-- The dump ends well with a datagram that is recorded and shows a message that ends it. -/
theorem step_ok (hsome : ks ≠ []) (h : step ks d c memory = .finished c' memory' (.ok ())) :
    ∃ m c₀, ending? c.port c.dumpSeq d.messages = some m ∧ c.record d.data = (.ok (), c₀) ∧
      EndsWith ks d ⟨c₀, memory, {}⟩ m c' memory' := by
  obtain ⟨c₀, hrecord⟩ | ⟨c₀, e, hfailed⟩ := record_or_fail ks d c memory
  case inr =>
    rw [hfailed] at h
    cases h
  obtain ⟨c₁, memory₁, result, hover, hstep⟩ | ⟨p, hwalks, hstep⟩ := step_cases hrecord ks memory
  · -- an ERROR ended the first walk
    rw [hstep] at h
    cases h
    obtain ⟨m, hending, herror⟩ := ending?_of_deliverAll_over hover
    obtain ⟨-, hport, hnumber⟩ := Conversation.eq_of_record hrecord
    dsimp only at hending
    rw [hport, hnumber] at hending
    refine ⟨m, c₀, hending, hrecord, ?_⟩
    rw [EndsWith, herror]
    exact deliverAll_over hover
  · rw [hstep] at h
    obtain ⟨header, payload, c₁, hdone, hacted, hmemory, hstate⟩ := conclude_ok h
    obtain ⟨hfound, hkind⟩ := found_of_deliverAll hsome hrecord hwalks
    rw [hdone] at hfound
    obtain ⟨m, hending, hm⟩ := Option.map_eq_some_iff.mp hfound.symm
    cases hm
    refine ⟨m, c₀, hending, hrecord, ?_⟩
    rw [EndsWith, hkind m hending]
    exact ⟨p, c₁, walks_of_deliverAll hwalks, hmemory, hacted, hstate⟩

/-! ## Datagrams before the last -/

theorem settled_of_step_more (h : step ks d c memory = .more c' memory') :
    c'.settled = c.settled := by
  have hbare := bare_step ks d c memory
  rw [h] at hbare
  exact (Conversation.settled_of_bare hbare).trans (Conversation.settled_record c d.data)

theorem settled_of_takes {ds : List Datagram} (h : (reader ks).Takes ds c memory c' memory') :
    c'.settled = c.settled := by
  induction h with
  | nil => rfl
  | @cons d _ c _ _ _ _ _ hstep _ ih =>
    have hsettled := settled_of_step_more (c := c.heard d) hstep
    exact ih.trans hsettled

/-- While the dump goes on, no setting changes and no message ends it. -/
theorem ending?_of_takes {ds : List Datagram} (hsome : ks ≠ [])
    (h : (reader ks).Takes ds c memory c' memory') :
    c'.settled = c.settled ∧
      ending? c.port c.dumpSeq (ds.flatMap Datagram.messages) = none := by
  induction h with
  | nil => exact ⟨rfl, rfl⟩
  | @cons d ds c c₁ c' memory memory₁ memory' hstep later ih =>
    have htakes := Reader.Takes.cons hstep later
    change step ks d (c.heard d) memory = .more c₁ memory₁ at hstep
    have hsettled := settled_of_step_more hstep
    change c₁.settled = c.settled at hsettled
    have hfirst := (step_more hsome hstep).1
    change ending? c.port c.dumpSeq d.messages = none at hfirst
    obtain ⟨-, hport, -, -, hnumber, -⟩ := Conversation.eq_of_settled hsettled
    obtain ⟨-, hnone⟩ := ih
    rw [hport, hnumber] at hnone
    refine ⟨settled_of_takes htakes, ?_⟩
    rw [List.flatMap_cons, ending?_append hfirst, hnone]

/-- A dump that ends well has taken datagrams that show no message that ends it, and then one that
does. -/
theorem readDump_ok {σ : Type} [Transport σ] {c : Connection σ} (hsome : ks ≠ [])
    (hok : (Connection.readDump ks memory c).1.1 = .ok ()) :
    let after := Connection.readDump ks memory c
    let patience := c.state.config.timeout
    ∃ before last c₁ memory₁,
      (Transport.arrivals patience c.endpoint).1 =
        before ++ last :: (Transport.arrivals patience after.2.endpoint).1 ∧
      (reader ks).Takes before c.state memory c₁ memory₁ ∧
      step ks last (c₁.heard last) memory₁ = .finished after.2.state after.1.2 (.ok ()) ∧
      c₁.settled = c.state.settled ∧
      ending? c.state.port c.state.dumpSeq (before.flatMap Datagram.messages) = none := by
  intro after patience
  obtain ⟨before, last, c₁, memory₁, harrivals, htakes, hlast⟩ :=
    Connection.drain_ok rfl (steady_reader ks) hok
  obtain ⟨hsettled, hnone⟩ := ending?_of_takes hsome htakes
  exact ⟨before, last, c₁, memory₁, harrivals, htakes, hlast, hsettled, hnone⟩

end Dump
end Netlink
