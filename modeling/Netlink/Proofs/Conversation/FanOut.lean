import Netlink.Proofs.Conversation.Notes

/-! # Several consumers of one dump

Every consumer of a dump is meant to be handed what it would be handed if it were alone. Consumers
that refuse nothing do not differ in how the dump ends, and all of them get the messages of every
datagram, except where the last datagram holds an ERROR that means no failure: the walk for the first
consumer ends the dump there, and the others never see what that datagram holds. -/

namespace Netlink

/-- Whether a reader goes on, and if not, whether it has ended well. -/
def Verdict.fate {β α : Type} : Verdict β α → Option Bool
  | .more .. => none
  | .finished _ _ result => some result.isOk

namespace Dump

open Consumer (Notes noteAt notedFrom)

variable {β γ : Type} {k : Consumer β} {ks : List (Consumer β)} {d : Datagram}
  {c c' : Conversation} {memory memory' : β}

/-! ## Consumers that refuse nothing -/

theorem isOk_errorResult_clearing (protocol : Protocol) (m : Message) (flags : UInt16) :
    (errorResult protocol (m.clearing flags)).isOk = (errorResult protocol m).isOk := by
  have hpayload : (m.clearing flags).payload = m.payload := rfl
  have hcode : (m.clearing flags).code = m.code := rfl
  unfold errorResult
  rw [hpayload, hcode]
  split
  · rfl
  · split <;> rfl

section Walks

variable {p : Progress β}

/-- A walk for a consumer that refuses nothing ends with the first message that ends the dump. -/
theorem deliver_willing (hwilling : k.Willing) (sender : UInt32) (fs : List Frame)
    (p : Progress β) :
    match ending? p.state.port p.state.dumpSeq (fs.map (Frame.message sender)),
      deliver k sender fs p with
    | none, .through _ => True
    | some m, .atDone _ => m.header.isDone = true
    | some m, .over _ _ result =>
      m.header.isDone = false ∧ result = errorResult p.state.protocol (m.clearing k.clears)
    | _, _ => False := by
  have hagrees := deliver_agrees k sender fs p
  rw [follow_eq] at hagrees
  generalize deliver k sender fs p = walked at hagrees ⊢
  generalize objects p.state.port p.state.dumpSeq (fs.map (Frame.message sender)) = wanted at hagrees
  have hall := hwilling.hand (wanted.map (Message.clearing k.clears)) p.memory
  rcases hhand : k.hand (wanted.map (Message.clearing k.clears)) p.memory with ⟨e | _, memory⟩
  · rw [hhand] at hall
    cases hall
  · rw [hhand] at hagrees
    cases hending : ending? p.state.port p.state.dumpSeq (fs.map (Frame.message sender)) with
    | none =>
      rw [hending] at hagrees
      rcases walked with q | q | ⟨c, memory', result⟩
      · trivial
      · exact hagrees
      · exact hagrees
    | some m =>
      rw [hending] at hagrees
      have hkind : (m.clearing k.clears).header.isDone = m.header.isDone := rfl
      cases hdone : m.header.isDone with
      | true =>
        simp only [hdone, if_true] at hagrees
        rcases walked with q | q | ⟨c, memory', result⟩
        · exact hagrees
        · exact hdone
        · exact absurd hagrees.1 (by simp [hdone])
      | false =>
        simp only [hdone, Bool.false_eq_true, if_false] at hagrees
        rcases walked with q | q | ⟨c, memory', result⟩
        · exact hagrees
        · exact absurd hagrees.1 (by simp [hkind, hdone])
        · exact ⟨hdone, hagrees.2.2⟩

/-- Consumers that refuse nothing let the dump go on after a datagram that ends with DONE, or that
nothing ends and nothing is wrong with. -/
theorem deliverAll_willing (hwilling : ∀ k ∈ ks, k.Willing)
    (hdone : ∀ m, ending? p.state.port p.state.dumpSeq d.messages = some m →
      m.header.isDone = true)
    (hclean : ending? p.state.port p.state.dumpSeq d.messages = none →
      (if d.truncated then none else (Frame.walk d.data).error?) = none) :
    ∃ q, (deliverAll d (Frame.walk d.data) ks p).progress? = some q := by
  induction ks generalizing p with
  | nil => exact ⟨p, rfl⟩
  | cons k ks ih =>
    have hwalk := deliver_willing (hwilling k List.mem_cons_self) d.sender
      (Frame.walk d.data).frames p
    have hbare := deliver_bare k d.sender (Frame.walk d.data).frames p
    have hrest : ∀ k ∈ ks, k.Willing := fun k hk => hwilling k (List.mem_cons_of_mem _ hk)
    have hmessages : (Frame.walk d.data).frames.map (Frame.message d.sender) = d.messages := rfl
    rw [hmessages] at hwalk
    -- the walks that are left come upon the same messages
    have hlater : ∀ {q : Progress β}, q.state.bare = p.state.bare →
        ∃ q', (deliverAll d (Frame.walk d.data) ks q).progress? = some q' := by
      intro q hq
      obtain ⟨-, hport, -, hnumber, -⟩ := Conversation.eq_of_bare hq
      refine ih hrest ?_ ?_
      · rw [hport, hnumber]
        exact hdone
      · rw [hport, hnumber]
        exact hclean
    rw [deliverAll]
    cases hdeliver : deliver k d.sender (Frame.walk d.data).frames p with
    | atDone q =>
      rw [hdeliver] at hbare
      exact hlater hbare
    | through q =>
      rw [hdeliver] at hbare hwalk
      cases hending : ending? p.state.port p.state.dumpSeq d.messages with
      | some m =>
        rw [hending] at hwalk
        exact hwalk.elim
      | none =>
        dsimp only
        rw [hclean hending]
        exact hlater hbare
    | «over» c memory result =>
      rw [hdeliver] at hwalk
      cases hending : ending? p.state.port p.state.dumpSeq d.messages with
      | some m =>
        rw [hending] at hwalk
        have herror := hwalk.1
        rw [hdone m hending] at herror
        cases herror
      | none =>
        rw [hending] at hwalk
        exact hwalk.elim

end Walks

/-! ## The end of the dump -/

/-- What a datagram means for a dump whose messages nobody refuses: it goes on, or it ends, well or
not. -/
def fate (c : Conversation) (d : Datagram) : Option Bool :=
  match (c.record d.data).1, ending? c.port c.dumpSeq d.messages with
  | .error _, _ => some false
  | .ok (), some m => some (endResult c.protocol m).isOk
  | .ok (), none => if d.truncated || (Frame.walk d.data).complaint?.isNone then none else some false

theorem fate_conclude (ks : List (Consumer β)) (d : Datagram) (p : Progress β) :
    (conclude ks d p).fate = match p.found.done with
      | some (h, payload) => some (onDone p.state h payload).1.isOk
      | none =>
        if d.truncated || ks.isEmpty || (Frame.walk d.data).rest.isEmpty then none
        else some false := by
  unfold conclude
  cases p.found.done with
  | some found =>
    dsimp only
    rcases onDone p.state found.1 found.2 with ⟨e | _, c⟩ <;> rfl
  | none =>
    dsimp only
    cases d.truncated with
    | true => rfl
    | false =>
      cases h : ks.isEmpty || (Frame.walk d.data).rest.isEmpty with
      | true => simp [h, Verdict.fate]
      | false => simp [h, Verdict.fate, Except.isOk, Except.toBool]

section Fate

variable {c₀ : Conversation} (hrecord : c.record d.data = (.ok (), c₀)) (hsome : ks ≠ [])
  (hwilling : ∀ k ∈ ks, k.Willing)

include hrecord hsome hwilling

theorem fate_of_done {m : Message} (hending : ending? c.port c.dumpSeq d.messages = some m)
    (hdone : m.header.isDone = true) :
    (step ks d c memory).fate = some (endResult c.protocol m).isOk := by
  obtain ⟨-, hport, hnumber⟩ := Conversation.eq_of_record hrecord
  have hending₀ : ending? c₀.port c₀.dumpSeq d.messages = some m := by
    rw [hport, hnumber, hending]
  obtain ⟨q, hq⟩ := deliverAll_willing (p := ⟨c₀, memory, {}⟩) hwilling
    (fun m' hm => by
      rw [hending₀] at hm
      cases hm
      exact hdone)
    (fun hnone => by
      rw [hending₀] at hnone
      cases hnone)
  have hfound := (found_of_deliverAll hsome hrecord hq).1
  rw [hending] at hfound
  rw [step_of_progress hrecord hq, fate_conclude, hfound]
  dsimp only [Option.map_some]
  rw [onDone_result, endResult, hdone]
  rfl

theorem fate_of_error {m : Message} (hending : ending? c.port c.dumpSeq d.messages = some m)
    (herror : m.header.isDone = false) :
    (step ks d c memory).fate = some (endResult c.protocol m).isOk := by
  obtain ⟨hprotocol, hport, hnumber⟩ := Conversation.eq_of_record hrecord
  obtain ⟨k, rest, rfl⟩ := List.exists_cons_of_ne_nil hsome
  have hwalk := deliver_willing (hwilling k List.mem_cons_self) d.sender
    (Frame.walk d.data).frames ⟨c₀, memory, {}⟩
  have hmessages : (Frame.walk d.data).frames.map (Frame.message d.sender) = d.messages := rfl
  dsimp only at hwalk
  rw [hmessages, hport, hnumber, hending] at hwalk
  rw [step_eq hrecord, deliverAll]
  cases hdeliver : deliver k d.sender (Frame.walk d.data).frames ⟨c₀, memory, {}⟩ with
  | through q =>
    rw [hdeliver] at hwalk
    exact hwalk.elim
  | atDone q =>
    rw [hdeliver] at hwalk
    dsimp only at hwalk
    rw [herror] at hwalk
    cases hwalk
  | «over» c' memory' result =>
    rw [hdeliver] at hwalk
    obtain ⟨-, hresult⟩ := hwalk
    have hend : endResult c.protocol m = errorResult c.protocol m := by
      rw [endResult, herror]
      rfl
    dsimp only
    rw [hresult, hend, hprotocol, ← isOk_errorResult_clearing c.protocol m k.clears]
    rfl

theorem fate_of_none (hending : ending? c.port c.dumpSeq d.messages = none) :
    (step ks d c memory).fate =
      if d.truncated || (Frame.walk d.data).complaint?.isNone then none else some false := by
  obtain ⟨-, hport, hnumber⟩ := Conversation.eq_of_record hrecord
  have hending₀ : ending? c₀.port c₀.dumpSeq d.messages = none := by rw [hport, hnumber, hending]
  cases hclean : (if d.truncated then none else (Frame.walk d.data).error?) with
  | none =>
    obtain ⟨q, hq⟩ := deliverAll_willing (p := ⟨c₀, memory, {}⟩) hwilling
      (fun m hm => by
        rw [hending₀] at hm
        cases hm)
      (fun _ => hclean)
    have hfound := (found_of_deliverAll hsome hrecord hq).1
    rw [hending] at hfound
    rw [step_of_progress hrecord hq, fate_conclude, hfound, List.isEmpty_eq_false_iff.mpr hsome]
    dsimp only [Option.map_none]
    cases htruncated : d.truncated with
    | true => rfl
    | false =>
      rw [htruncated] at hclean
      have hnoerror : (Frame.walk d.data).error? = none := hclean
      rw [Frame.Walk.complaint?, hnoerror]
      cases (Frame.walk d.data).rest with
      | nil => rfl
      | cons b bs => rfl
  | some e =>
    -- the first walk comes to the end and complains
    obtain ⟨k, rest, rfl⟩ := List.exists_cons_of_ne_nil hsome
    have hwalk := deliver_willing (hwilling k List.mem_cons_self) d.sender
      (Frame.walk d.data).frames ⟨c₀, memory, {}⟩
    have hmessages : (Frame.walk d.data).frames.map (Frame.message d.sender) = d.messages := rfl
    dsimp only at hwalk
    rw [hmessages, hending₀] at hwalk
    rw [step_eq hrecord, deliverAll]
    cases hdeliver : deliver k d.sender (Frame.walk d.data).frames ⟨c₀, memory, {}⟩ with
    | atDone q =>
      rw [hdeliver] at hwalk
      exact hwalk.elim
    | «over» c' memory' result =>
      rw [hdeliver] at hwalk
      exact hwalk.elim
    | through q =>
      dsimp only
      rw [hclean]
      cases htruncated : d.truncated with
      | true =>
        rw [htruncated] at hclean
        cases hclean
      | false =>
        rw [htruncated] at hclean
        have herror : (Frame.walk d.data).error? = some e := hclean
        rw [Frame.Walk.complaint?, herror]
        rfl

end Fate

theorem fate_step (hsome : ks ≠ []) (hwilling : ∀ k ∈ ks, k.Willing) (d : Datagram)
    (c : Conversation) (memory : β) : (step ks d c memory).fate = fate c d := by
  unfold fate
  rcases hrecord : c.record d.data with ⟨e | _, c₀⟩
  · unfold step
    rw [hrecord]
    rfl
  · cases hending : ending? c.port c.dumpSeq d.messages with
    | none => exact fate_of_none hrecord hsome hwilling hending
    | some m =>
      cases hdone : m.header.isDone with
      | true => exact fate_of_done hrecord hsome hwilling hending hdone
      | false => exact fate_of_error hrecord hsome hwilling hending hdone

theorem fate_of_bare {c c' : Conversation} (h : c'.bare = c.bare) (d : Datagram) :
    fate c' d = fate c d := by
  obtain ⟨hprotocol, hport, -, hnumber, -⟩ := Conversation.eq_of_bare h
  rw [fate, fate, (Conversation.bare_record h d.data).1, hprotocol, hport, hnumber]

variable {ks' : List (Consumer γ)}

theorem isOk_fold (hsome : ks ≠ []) (hsome' : ks' ≠ []) (hwilling : ∀ k ∈ ks, k.Willing)
    (hwilling' : ∀ k ∈ ks', k.Willing) (e : Error) (ds : List Datagram) (hbare : c'.bare = c.bare)
    (memory : β) (memory' : γ) :
    ((reader ks').fold e ds c' memory').1.isOk = ((reader ks).fold e ds c memory).1.isOk := by
  induction ds generalizing c c' memory memory' with
  | nil => rfl
  | cons d ds ih =>
    -- the two conversations differ in nothing that decides how a datagram is taken
    have hheard : (c'.heard d).bare = (c.heard d).bare := hbare
    have hfate := fate_step hsome hwilling d (c.heard d) memory
    have hfate' := fate_step hsome' hwilling' d (c'.heard d) memory'
    rw [fate_of_bare hheard, ← hfate] at hfate'
    cases hstep : step ks d (c.heard d) memory with
    | more c₁ memory₁ =>
      cases hstep' : step ks' d (c'.heard d) memory' with
      | finished c₂ memory₂ result =>
        rw [hstep, hstep'] at hfate'
        cases hfate'
      | more c₂ memory₂ =>
        have hbare := bare_step ks d (c.heard d) memory
        have hbare' := bare_step ks' d (c'.heard d) memory'
        rw [hstep] at hbare
        rw [hstep', (Conversation.bare_record hheard d.data).2] at hbare'
        rw [Reader.fold_of_more hstep', Reader.fold_of_more hstep]
        exact ih (hbare'.trans hbare.symm) memory₁ memory₂
    | finished c₁ memory₁ result =>
      cases hstep' : step ks' d (c'.heard d) memory' with
      | more c₂ memory₂ =>
        rw [hstep, hstep'] at hfate'
        cases hfate'
      | finished c₂ memory₂ result' =>
        rw [hstep, hstep'] at hfate'
        rw [Reader.fold_of_finished hstep', Reader.fold_of_finished hstep]
        exact Option.some.inj hfate'

/-- **Whoever takes everything comes to the same end.** Consumers that refuse nothing do not differ in
whether the dump ends well. -/
theorem isOk_readDump {σ : Type} [Transport σ] (hsome : ks ≠ []) (hsome' : ks' ≠ [])
    (hwilling : ∀ k ∈ ks, k.Willing) (hwilling' : ∀ k ∈ ks', k.Willing) (c : Connection σ)
    (memory : β) (memory' : γ) :
    (Connection.readDump ks' memory' c).1.1.isOk = (Connection.readDump ks memory c).1.1.isOk := by
  have hdrain : ∀ {δ : Type} (ks : List (Consumer δ)) (memory : δ),
      (Connection.readDump ks memory c).1 =
        (reader ks).fold (Transport.arrivals c.state.config.timeout c.endpoint).2
          (Transport.arrivals c.state.config.timeout c.endpoint).1 c.state memory :=
    fun ks memory => Connection.drain_eq_fold rfl (steady_reader ks) c memory
  rw [hdrain, hdrain]
  exact isOk_fold hsome hsome' hwilling hwilling' _ _ rfl memory memory'

/-! ## What each consumer is handed -/

/-- The messages of a dump as a consumer sees them that is handed these. -/
def share (port number : UInt32) (k : Consumer β) (ms : List Message) : List Message :=
  (objects port number ms).map (Message.clearing k.clears)

theorem share_append {port number : UInt32} {ms : List Message} (k : Consumer β)
    (h : ending? port number ms = none) (later : List Message) :
    share port number k (ms ++ later) = share port number k ms ++ share port number k later := by
  rw [share, objects_append h, List.map_append, share, share]

section Shares

variable {port number : UInt32} {before : List Datagram}
  (hnone : ending? port number (before.flatMap Datagram.messages) = none)

include hnone

theorem share_last (k : Consumer β) (last : Datagram) :
    share port number k ((before ++ [last]).flatMap Datagram.messages) =
      share port number k (before.flatMap Datagram.messages) ++
        share port number k last.messages := by
  rw [List.flatMap_append, List.flatMap_singleton, share_append k hnone]

/-- Whoever does not get the last datagram misses something unless it holds nothing of the dump. -/
theorem share_eq_iff (k : Consumer β) (last : Datagram) (whole : Prop) [Decidable whole] :
    share port number k ((if whole then before ++ [last] else before).flatMap Datagram.messages) =
        share port number k ((before ++ [last]).flatMap Datagram.messages) ↔
      whole ∨ objects port number last.messages = [] := by
  by_cases h : whole
  · simp [h]
  · rw [if_neg h, share_last hnone, List.self_eq_append_right, share, List.map_eq_nil_iff]
    simp [h]

end Shares

section Notes

variable {p q : Progress (β × Notes)} {s s' : β × Notes} {i j : Nat}

theorem notes_of_walk (hwilling : k.Willing) {ms : List Message}
    (h : (k.noting (noteAt i)).hand ms s = (.ok (), s')) :
    s'.2 i = s.2 i ++ ms ∧ ∀ j, j ≠ i → s'.2 j = s.2 j := by
  have hnotes := hwilling.hand_noting (noteAt i) ms s
  rw [h] at hnotes
  dsimp only at hnotes
  rw [hnotes]
  refine ⟨?_, fun j hj => ?_⟩
  · rw [Consumer.foldl_noteAt, if_pos rfl]
  · rw [Consumer.foldl_noteAt, if_neg hj]

theorem Walks.notes_of_lt (hwilling : ∀ k ∈ ks, k.Willing) (h : Walks d (notedFrom i ks) p q)
    (hlt : j < i) : q.memory.2 j = p.memory.2 j := by
  induction ks generalizing i p with
  | nil =>
    cases h
    rfl
  | cons k ks ih =>
    cases h with
    | cons walk later =>
      obtain ⟨-, hhand, -⟩ := deliver_progress walk
      have hfirst := (notes_of_walk (hwilling k List.mem_cons_self) hhand).2 j (by omega)
      have hrest := ih (fun k hk => hwilling k (List.mem_cons_of_mem _ hk)) later (by omega)
      rw [hrest, hfirst]

theorem Walks.notes (hwilling : ∀ k ∈ ks, k.Willing) (h : Walks d (notedFrom i ks) p q)
    (hk : ks[j]? = some k) :
    q.memory.2 (i + j) =
      p.memory.2 (i + j) ++ share p.state.port p.state.dumpSeq k d.messages := by
  induction ks generalizing i j p with
  | nil => cases hk
  | cons k' ks ih =>
    have hothers : ∀ k ∈ ks, k.Willing := fun k hk => hwilling k (List.mem_cons_of_mem _ hk)
    cases h with
    | @cons _ _ _ p₁ _ walk later =>
      obtain ⟨hbare, hhand, -⟩ := deliver_progress walk
      obtain ⟨hown, hother⟩ := notes_of_walk (hwilling k' List.mem_cons_self) hhand
      cases j with
      | zero =>
        obtain rfl : k' = k := Option.some.inj hk
        rw [Nat.add_zero, later.notes_of_lt hothers (Nat.lt_succ_self i), hown]
        rfl
      | succ j =>
        obtain ⟨-, hport, -, hnumber, -⟩ := Conversation.eq_of_bare hbare
        have hplace : i + (j + 1) = i + 1 + j := by omega
        have hlater := ih hothers later hk
        rw [hport, hnumber] at hlater
        rw [hplace, hlater, hother _ (by omega)]

variable (hsome : ks ≠ []) (hwilling : ∀ k ∈ ks, k.Willing) (hk : ks[i]? = some k)

include hsome hwilling hk

theorem notes_of_takes {ds : List Datagram} (h : (reader (notedFrom 0 ks)).Takes ds c s c' s') :
    s'.2 i = s.2 i ++ share c.port c.dumpSeq k (ds.flatMap Datagram.messages) := by
  have hnoted := Consumer.notedFrom_ne_nil hsome 0
  induction h with
  | nil => simp [share, objects]
  | @cons d ds c c₁ c' s s₁ s' hstep later ih =>
    obtain ⟨hending, c₀, p, hrecord, hwalks, hmemory, -⟩ := step_more hnoted hstep
    have hsettled := settled_of_step_more hstep
    obtain ⟨-, hport, -, -, hnumber, -⟩ := Conversation.eq_of_settled hsettled
    obtain ⟨-, hport₀, hnumber₀⟩ := Conversation.eq_of_record hrecord
    have hnotes := hwalks.notes hwilling hk
    dsimp only at hnotes
    rw [Nat.zero_add, hport₀, hnumber₀] at hnotes
    rw [hport, hnumber] at ih
    rw [ih, hmemory, hnotes, List.flatMap_cons, List.append_assoc]
    exact congrArg _ (share_append k hending _).symm

/-- All consumers are handed the last messages if the dump ends with DONE, and else the first alone. -/
theorem notes_of_step_ok (h : step (notedFrom 0 ks) d c s = .finished c' s' (.ok ())) {m : Message}
    (hending : ending? c.port c.dumpSeq d.messages = some m) :
    s'.2 i = s.2 i ++
      if i = 0 ∨ m.header.isDone = true then share c.port c.dumpSeq k d.messages else [] := by
  obtain ⟨m', c₀, hending', hrecord, hends⟩ := step_ok (Consumer.notedFrom_ne_nil hsome 0) h
  obtain rfl : m = m' := Option.some.inj (hending.symm.trans hending')
  obtain ⟨-, hport, hnumber⟩ := Conversation.eq_of_record hrecord
  rw [EndsWith] at hends
  cases hdone : m.header.isDone with
  | true =>
    rw [hdone] at hends
    obtain ⟨p, c₁, hwalks, hmemory, -⟩ := hends
    have hnotes := hwalks.notes hwilling hk
    dsimp only at hnotes
    rw [Nat.zero_add, hport, hnumber] at hnotes
    rw [hmemory, hnotes, if_pos (.inr rfl)]
  | false =>
    rw [hdone] at hends
    obtain ⟨k', rest, hfirst, hwalk⟩ := hends
    obtain ⟨k₀, ks₀, rfl⟩ := List.exists_cons_of_ne_nil hsome
    obtain ⟨rfl, -⟩ := List.cons.inj hfirst
    obtain ⟨hhand, -⟩ := deliver_over hwalk
    obtain ⟨hown, hother⟩ := notes_of_walk (hwilling k₀ List.mem_cons_self) hhand
    cases i with
    | zero =>
      obtain rfl : k₀ = k := Option.some.inj hk
      rw [if_pos (.inl rfl), hown]
      dsimp only
      rw [hport, hnumber]
      rfl
    | succ i =>
      rw [if_neg (by simp), List.append_nil, hother _ (Nat.succ_ne_zero i)]

end Notes

def goesOn (port number : UInt32) (d : Datagram) : Bool := (ending? port number d.messages).isNone

/-- What consumers that refuse nothing have been handed when the dump has ended well. -/
theorem notes_of_readDump {σ : Type} [Transport σ] {c : Connection σ} (hsome : ks ≠ [])
    (hwilling : ∀ k ∈ ks, k.Willing)
    (hok : (Connection.readDump (notedFrom 0 ks) (memory, fun _ => []) c).1.1 = .ok ()) :
    let after := Connection.readDump (notedFrom 0 ks) (memory, fun _ => []) c
    let patience := c.state.config.timeout
    let arrivals := (Transport.arrivals patience c.endpoint).1
    let before := arrivals.takeWhile (goesOn c.state.port c.state.dumpSeq)
    ∃ last m, arrivals = before ++ last :: (Transport.arrivals patience after.2.endpoint).1 ∧
      ending? c.state.port c.state.dumpSeq (before.flatMap Datagram.messages) = none ∧
      ending? c.state.port c.state.dumpSeq last.messages = some m ∧
      ∀ i k, ks[i]? = some k → after.1.2.2 i = share c.state.port c.state.dumpSeq k
        ((if i = 0 ∨ m.header.isDone = true then before ++ [last] else before).flatMap
          Datagram.messages) := by
  intro after patience arrivals before
  obtain ⟨before', last, c₁, s₁, harrivals, htakes, hlast, hsettled, hnone⟩ :=
    readDump_ok (Consumer.notedFrom_ne_nil hsome 0) hok
  obtain ⟨m, c₀, hending, -⟩ := step_ok (Consumer.notedFrom_ne_nil hsome 0) hlast
  obtain ⟨-, hport, -, -, hnumber, -⟩ := Conversation.eq_of_settled hsettled
  have hends : ending? c.state.port c.state.dumpSeq last.messages = some m := by
    rw [← hport, ← hnumber]
    exact hending
  -- every datagram before the last shows nothing that ends the dump
  have hgoing : ∀ d ∈ before', goesOn c.state.port c.state.dumpSeq d = true := by
    intro d hd
    rw [goesOn, Option.isNone_iff_eq_none, ending?, List.find?_eq_none]
    intro m hm
    rw [ending?, List.find?_eq_none] at hnone
    rw [List.mem_filter] at hm
    exact hnone m (List.mem_filter.mpr ⟨List.mem_flatMap.mpr ⟨d, hd, hm.1⟩, hm.2⟩)
  have hstops : ¬ goesOn c.state.port c.state.dumpSeq last = true := by
    simp [goesOn, hends]
  have hbefore : before = before' := by
    change List.takeWhile _ (Transport.arrivals patience c.endpoint).1 = before'
    rw [harrivals, List.takeWhile_append_of_pos hgoing, List.takeWhile_cons_of_neg hstops,
      List.append_nil]
  rw [hbefore]
  refine ⟨last, m, harrivals, hnone, hends, fun i k hk => ?_⟩
  have hearlier := notes_of_takes hsome hwilling hk htakes
  have hlater := notes_of_step_ok hsome hwilling hk hlast hending
  change after.1.2.2 i = s₁.2 i ++
    (if i = 0 ∨ m.header.isDone = true then share c₁.port c₁.dumpSeq k last.messages else [])
    at hlater
  change s₁.2 i = share c.state.port c.state.dumpSeq k (before'.flatMap Datagram.messages)
    at hearlier
  rw [hlater, hearlier, hport, hnumber]
  by_cases hwhole : i = 0 ∨ m.header.isDone = true
  · rw [if_pos hwhole, if_pos hwhole, share_last hnone]
  · rw [if_neg hwhole, if_neg hwhole, List.append_nil]

/-- A consumer that comes to the end among others comes to it alone as well. -/
theorem readDump_alone {σ : Type} [Transport σ] {c : Connection σ} (hsome : ks ≠ [])
    (hwilling : ∀ k ∈ ks, k.Willing) (hok : (Connection.readDump ks memory c).1.1 = .ok ())
    (hk : k ∈ ks) : (Connection.readDump [k] memory c).1.1 = .ok () := by
  have hwilling₁ : ∀ k' ∈ [k], k'.Willing := List.forall_mem_singleton.mpr (hwilling k hk)
  have hisOk := isOk_readDump hsome (List.cons_ne_nil k []) hwilling hwilling₁ c memory memory
  rw [hok] at hisOk
  exact eq_ok_of_isOk hisOk

/-- **Together and alone.** Over any endpoint and for any protocol, consumers that refuse nothing and
together come to the end of a dump also come to it alone. Alone each is handed all messages of the
dump, with its own flags cleared. Together they are handed the same, except that all but the first
miss the last datagram's messages if the dump ends with an ERROR that means no failure. -/
theorem together_eq_alone_iff {σ : Type} [Transport σ] {c : Connection σ} (hsome : ks ≠ [])
    (hwilling : ∀ k ∈ ks, k.Willing) (hok : (Connection.readDump ks memory c).1.1 = .ok ()) :
    let number := c.state.dumpSeq
    let patience := c.state.config.timeout
    let noted (ks : List (Consumer β)) :=
      Connection.readDump (notedFrom 0 ks) (memory, fun _ => []) c
    let together (i : Nat) := (noted ks).1.2.2 i
    let alone (k : Consumer β) := (noted [k]).1.2.2 0
    Connection.readDump ks memory c = (((noted ks).1.1, (noted ks).1.2.1), (noted ks).2) ∧
      ∃ before last m,
        (Transport.arrivals patience c.endpoint).1 =
          before ++ last :: (Transport.arrivals patience (noted ks).2.endpoint).1 ∧
        ending? c.state.port number ((before ++ [last]).flatMap Datagram.messages) = some m ∧
        ∀ i k, ks[i]? = some k →
          (Connection.readDump [k] memory c).1.1 = .ok () ∧
          alone k = (objects c.state.port number
            ((before ++ [last]).flatMap Datagram.messages)).map (Message.clearing k.clears) ∧
          together i = (objects c.state.port number
            ((if i = 0 ∨ m.header.isDone = true then before ++ [last] else before).flatMap
              Datagram.messages)).map (Message.clearing k.clears) ∧
          (together i = alone k ↔
            i = 0 ∨ m.header.isDone = true ∨ objects c.state.port number last.messages = []) := by
  intro number patience noted together alone
  have hnoted : ∀ {ks : List (Consumer β)}, (Connection.readDump ks memory c).1.1 = .ok () →
      (noted ks).1.1 = .ok () := by
    intro ks hok
    rw [readDump_noted ks c memory fun _ => []] at hok
    exact hok
  obtain ⟨last, m, harrivals, hnone, hends, hcalls⟩ :=
    notes_of_readDump hsome hwilling (hnoted hok)
  let before := (Transport.arrivals patience c.endpoint).1.takeWhile (goesOn c.state.port number)
  have hending : ending? c.state.port number ((before ++ [last]).flatMap Datagram.messages) =
      some m := by
    rw [List.flatMap_append, List.flatMap_singleton, ending?_append hnone, hends]
  refine ⟨readDump_noted ks c memory _, before, last, m, harrivals, hending, fun i k hk => ?_⟩
  have hok₁ := readDump_alone hsome hwilling hok (List.mem_of_getElem? hk)
  have hwilling₁ : ∀ k' ∈ [k], k'.Willing :=
    List.forall_mem_singleton.mpr (hwilling k (List.mem_of_getElem? hk))
  obtain ⟨last', m', harrivals', -, hends', hcalls'⟩ :=
    notes_of_readDump (List.cons_ne_nil k []) hwilling₁ (hnoted hok₁)
  -- both come to an end with the same datagram
  obtain ⟨rfl, -⟩ := List.cons.inj (List.append_cancel_left (harrivals.symm.trans harrivals'))
  obtain rfl : m = m' := Option.some.inj (hends.symm.trans hends')
  have hown : alone k = _ := hcalls' 0 k rfl
  have hshared : together i = _ := hcalls i k hk
  rw [if_pos (.inl rfl)] at hown
  refine ⟨hok₁, hown, hshared, ?_⟩
  rw [hshared, hown, share_eq_iff hnone, or_assoc]

/-- An ERROR of dump 7 to port 42 that says that there is nothing. -/
def sampleNothing : Packet :=
  .fitting ⟨0, MessageType.error, 0, 7, 42⟩ (Wire.le32 0xfffffffe ++ Wire.zeros 16) (by
    rw [List.length_append, Wire.length_le32, Wire.length_zeros]
    decide)

/-- A conversation about sockets that waits for dump 7, over an endpoint that brings one datagram. -/
def sampleSockets (last : List Packet) : Connection Script where
  endpoint := { queue := [{ outcome := .datagram { data := Packet.records last } }] }
  state := { protocol := .sockDiag, port := 42, config := {}, seq := 7, dumpSeq := 7 }

theorem willing_sampleTaker (clears : UInt16) : (sampleTaker clears).Willing := fun _ _ => rfl

/-- The second of two consumers comes to the end alone, and the first is handed what it would be
handed alone. -/
theorem together_eq_alone_iff_sample :
    let first := sampleTaker MessageFlag.multi
    let second := sampleTaker 0
    let c := sampleSockets [sampleObject 7 [1, 2, 3] (by decide), sampleNothing]
    let noted (ks : List (Consumer Unit)) :=
      Connection.readDump (notedFrom 0 ks) ((), fun _ => []) c
    [first, second] ≠ [] ∧ (∀ k ∈ [first, second], k.Willing) ∧
      (Connection.readDump [first, second] () c).1.1 = .ok () ∧
      (Connection.readDump [second] () c).1.1 = .ok () ∧
      (noted [first, second]).1.2.2 0 = (noted [first]).1.2.2 0 := by
  intro first second c noted
  have hsome : [first, second] ≠ [] := List.cons_ne_nil _ _
  have hwilling : ∀ k ∈ [first, second], k.Willing := by
    intro k hk
    simp only [List.mem_cons, List.not_mem_nil, or_false] at hk
    rcases hk with rfl | rfl
    · exact willing_sampleTaker _
    · exact willing_sampleTaker _
  have hok : (Connection.readDump [first, second] () c).1.1 = .ok () :=
    eq_ok_of_isOk (by decide +kernel)
  obtain ⟨-, before, last, m, -, -, hcalls⟩ := together_eq_alone_iff hsome hwilling hok
  obtain ⟨hsecond, -⟩ := hcalls 1 second rfl
  obtain ⟨-, -, -, hfirst⟩ := hcalls 0 first rfl
  exact ⟨hsome, hwilling, hok, hsecond, hfirst.mpr (.inl rfl)⟩

/-- Alone, a consumer is handed the object in front of the ERROR. Behind another consumer, it is handed
nothing. -/
theorem object_missed_behind_another :
    let k := sampleTaker 0
    let object := sampleObject 7 [1, 2, 3] (by decide)
    let c := sampleSockets [object, sampleNothing]
    let noted (ks : List (Consumer Unit)) :=
      Connection.readDump (notedFrom 0 ks) ((), fun _ => []) c
    (Connection.readDump [k, k] () c).1.1 = .ok () ∧ k.Willing ∧
      (noted [k]).1.2.2 0 = [object.message 0] ∧ (noted [k, k]).1.2.2 1 = [] := by
  have hok : (Connection.readDump [sampleTaker 0, sampleTaker 0] ()
      (sampleSockets [sampleObject 7 [1, 2, 3] (by decide), sampleNothing])).1.1 = .ok () :=
    eq_ok_of_isOk (by decide +kernel)
  intro k object c noted
  exact ⟨hok, willing_sampleTaker 0, by decide +kernel, by decide +kernel⟩

end Dump
end Netlink
