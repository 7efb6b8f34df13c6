import Netlink.Socket.Basic

/-! # Opening a socket

A socket is opened by steps whose order its configuration fixes. Each step makes one call, except that
a size past the greatest value is refused before there is a call. A step that has to succeed and does
not is the last one, and its failure is that of the opening. -/

namespace Netlink.Socket

open Host

/-- A step on the way to an open socket. -/
structure Step where
  setup : Setup
  /-- The call that is made, with its result. -/
  call : Int → Call
  needed : Bool := true
  /-- What is asked for, where that is a size. -/
  size : Nat := 0

namespace Step

def option (level name : Nat) (value : UInt32) : Step where
  setup := .option level name
  call := .setOption level name value

/-- An option that may as well be refused. -/
def wish (level name : Nat) (value : UInt32) : Step where
  setup := .option level name
  call := .setOption level name value
  needed := false

def buffer (name size : Nat) : Step where
  setup := .option socketLevel name
  call := .setOption socketLevel name (UInt32.ofNat size)
  size := size

/-- How the step stops the opening on a host, if it does. -/
def stops? (s : Step) (h : Host) : Option Error :=
  if maxSize < s.size then some (.io .invalidInput)
  else if s.needed then (h.setupFault h.calls s.setup).map refused else none

/-- The host when the call has been made. -/
def make (s : Step) (h : Host) : Host := h.record (s.call (status (h.setupOutcome s.setup)))

def run (s : Step) : Calls Unit := fun h =>
  match s.stops? h with
  | none => (.ok (), s.make h)
  | some e => (.error e, if maxSize < s.size then h else s.make h)

end Step

def runAll : List Step → Calls Unit
  | [] => pure ()
  | s :: ss => do
    s.run
    runAll ss

/-- The steps in their order. Only the extended acknowledgements may be refused. -/
def openingSteps (protocol : Protocol) (config : Config) : List Step :=
  [{ setup := .socket, call := .socket protocol.number },
    .buffer sendBufferOption config.sendBuffer, .buffer receiveBufferOption config.receiveBuffer] ++
  (if config.extendedAcks then [.wish netlinkLevel extendedAckOption 1] else []) ++
  [{ setup := .bind, call := .bind netlinkFamily 0 config.groups },
    { setup := .address, call := .address }] ++
  config.memberships.map (.option netlinkLevel addMembershipOption) ++
  if config.allNamespaces then [.option netlinkLevel allNamespacesOption 1] else []

/-- The calls of several steps with their results. -/
def answers (h : Host) : List Step → List Call
  | [] => []
  | s :: ss => s.call (status (h.setupOutcome s.setup)) :: answers (s.make h) ss

/-- The host when the calls of several steps have been made. -/
def after (h : Host) (ss : List Step) : Host := { h with calls := h.calls ++ answers h ss }

/-- None of the steps stops the opening. -/
def Passes (h : Host) : List Step → Prop
  | [] => True
  | s :: ss => s.stops? h = none ∧ Passes (s.make h) ss

variable {h h' : Host} {s : Step} {ss : List Step}

@[simp] theorem after_nil (h : Host) : after h [] = h := by simp [after, answers]

@[simp] theorem after_cons (h : Host) (s : Step) (ss : List Step) :
    after h (s :: ss) = after (s.make h) ss := by
  simp [after, answers, Step.make, record]

/-! ## Steps and calls -/

/-- The port that the socket is bound to, without a call. -/
def portOf : Calls UInt32 := fun h => (.ok h.port, h)

theorem run_eq_required {call : Host → Except Nat Unit × Host}
    (hcall : ∀ h, call h = (h.setupOutcome s.setup, s.make h)) (hneeded : s.needed = true)
    (hsize : s.size ≤ maxSize) : s.run = required call := by
  funext h
  simp only [Step.run, Step.stops?, required, hcall, setupOutcome, hneeded, if_true,
    if_neg (Nat.not_lt.mpr hsize)]
  cases h.setupFault h.calls s.setup <;> rfl

theorem run_eq_optional {call : Host → Except Nat Unit × Host}
    (hcall : ∀ h, (call h).2 = s.make h) (hneeded : s.needed = false) (hsize : s.size ≤ maxSize) :
    s.run = optional call := by
  funext h
  simp [Step.run, Step.stops?, optional, hcall, hneeded, Nat.not_lt.mpr hsize]

theorem run_buffer (name size : Nat) : (Step.buffer name size).run = setBuffer name size := by
  unfold setBuffer
  by_cases hsize : maxSize < size
  · rw [if_pos hsize]
    funext h
    have hstops : (Step.buffer name size).stops? h = some (.io .invalidInput) := if_pos hsize
    rw [Step.run, hstops]
    exact congrArg (Prod.mk _) (if_pos hsize)
  · rw [if_neg hsize]
    exact run_eq_required (fun h => rfl) rfl (Nat.le_of_not_lt hsize)

theorem bind_of_ok {α β : Type} {m : Calls α} {f : α → Calls β} {a : α} (hm : m h = (.ok a, h')) :
    (m >>= f : Calls β) h = f a h' := by
  change (ExceptT.bindCont f (m h).1 : Calls β) (m h).2 = _
  rw [hm]
  rfl

theorem bind_of_error {α β : Type} {m : Calls α} {f : α → Calls β} {e : Error}
    (hm : m h = (.error e, h')) : (m >>= f : Calls β) h = (.error e, h') := by
  change (ExceptT.bindCont f (m h).1 : Calls β) (m h).2 = _
  rw [hm]
  rfl

theorem run_of_stops {e : Error} (hs : s.stops? h = some e) :
    s.run h = (.error e, if maxSize < s.size then h else s.make h) := by
  rw [Step.run, hs]

theorem run_of_passes (hs : s.stops? h = none) : s.run h = (.ok (), s.make h) := by
  rw [Step.run, hs]

/-- Without a port to be read back, the step is one like the others. -/
theorem run_address :
    required Host.address =
      (Step.run { setup := .address, call := .address } >>= fun _ => portOf : Calls UInt32) := by
  funext h
  cases hfault : h.setupFault h.calls .address with
  | none =>
    rw [bind_of_ok (run_of_passes (by simp [Step.stops?, hfault]))]
    simp only [required, Host.address, portOf, Step.make, setupOutcome, hfault]
    rfl
  | some n =>
    rw [bind_of_error (run_of_stops (by simp [Step.stops?, hfault]; rfl))]
    simp only [required, Host.address, Step.make, setupOutcome, hfault]
    rfl

theorem runAll_append (as bs : List Step) :
    runAll (as ++ bs) = (do runAll as; runAll bs : Calls Unit) := by
  induction as with
  | nil => rfl
  | cons s as ih => simp only [List.cons_append, runAll, ih, bind_assoc]

theorem runAll_join (groups : List UInt32) :
    runAll (groups.map (.option netlinkLevel addMembershipOption)) = groups.forM join := by
  induction groups with
  | nil => rfl
  | cons group groups ih =>
    have hjoin : (Step.option netlinkLevel addMembershipOption group).run = join group :=
      run_eq_required (fun h => rfl) rfl (Nat.zero_le _)
    rw [List.map_cons, runAll, hjoin, ih]
    rfl

/-- All of several steps pass, or a first one stops the opening. -/
theorem runAll_cases (ss : List Step) (h : Host) :
    (Passes h ss ∧ runAll ss h = (.ok (), after h ss)) ∨
      ∃ before s behind e, ss = before ++ s :: behind ∧ Passes h before ∧
        s.stops? (after h before) = some e ∧
        runAll ss h = (.error e, after h (if maxSize < s.size then before else before ++ [s])) := by
  induction ss generalizing h with
  | nil => exact .inl ⟨trivial, by rw [after_nil]; rfl⟩
  | cons s ss ih =>
    rw [runAll]
    cases hstops : s.stops? h with
    | some e =>
      refine .inr ⟨[], s, ss, e, rfl, trivial, by rwa [after_nil], ?_⟩
      rw [bind_of_error (run_of_stops hstops)]
      split <;> simp
    | none =>
      rw [bind_of_ok (run_of_passes hstops)]
      rcases ih (s.make h) with ⟨hpass, hrun⟩ | ⟨before, t, behind, e, rfl, hpass, ht, hrun⟩
      · exact .inl ⟨⟨hstops, hpass⟩, by rwa [after_cons]⟩
      · refine .inr ⟨s :: before, t, behind, e, rfl, ⟨hstops, hpass⟩, by rwa [after_cons], ?_⟩
        rw [hrun]
        split <;> simp

/-- No step changes the port, so it may as well be read back behind them all. -/
theorem port_first (ss : List Step) :
    (do let port ← portOf; runAll ss; return port : Calls UInt32) =
      (do runAll ss; portOf : Calls UInt32) := by
  funext h
  rw [bind_of_ok (show portOf h = (.ok h.port, h) from rfl)]
  rcases runAll_cases ss h with ⟨-, hrun⟩ | ⟨_, _, _, _, -, -, -, hrun⟩
  · rw [bind_of_ok hrun, bind_of_ok hrun]
    rfl
  · rw [bind_of_error hrun, bind_of_error hrun]

theorem setUp_eq (protocol : Protocol) (config : Config) :
    setUp protocol config =
      (do runAll (openingSteps protocol config); portOf : Calls UInt32) := by
  have hsocket : Step.run { setup := .socket, call := .socket protocol.number } =
      required (Host.socket protocol) := run_eq_required (fun h => rfl) rfl (Nat.zero_le _)
  have hacks : (Step.wish netlinkLevel extendedAckOption 1).run =
      optional (Host.setOption netlinkLevel extendedAckOption 1) :=
    run_eq_optional (fun h => rfl) rfl (Nat.zero_le _)
  have hbind : Step.run { setup := .bind, call := .bind netlinkFamily 0 config.groups } =
      required (Host.bind config.groups) := run_eq_required (fun h => rfl) rfl (Nat.zero_le _)
  have hall : (Step.option netlinkLevel allNamespacesOption 1).run =
      required (Host.setOption netlinkLevel allNamespacesOption 1) :=
    run_eq_required (fun h => rfl) rfl (Nat.zero_le _)
  have hport := port_first (config.memberships.map (.option netlinkLevel addMembershipOption) ++
    if config.allNamespaces then [.option netlinkLevel allNamespacesOption 1] else [])
  simp only [runAll_append, runAll_join, bind_assoc] at hport
  rw [setUp, openingSteps, run_address]
  simp only [runAll_append, bind_assoc, runAll, hsocket, hbind, run_buffer, runAll_join, pure_bind,
    ← hport]
  cases config.extendedAcks <;> cases config.allNamespaces <;>
    simp [runAll, hacks, hall]

/-! ## Opening -/

theorem passes_split {before behind : List Step} (hpass : Passes h (before ++ s :: behind)) :
    s.stops? (after h before) = none := by
  induction before generalizing h with
  | nil =>
    rw [after_nil]
    exact hpass.1
  | cons t before ih =>
    rw [after_cons]
    exact ih hpass.2

theorem passes_iff : Passes h ss ↔
    ∀ before s behind, ss = before ++ s :: behind → s.stops? (after h before) = none := by
  constructor
  · rintro hpass before s behind rfl
    exact passes_split hpass
  · intro hall
    induction ss generalizing h with
    | nil => trivial
    | cons s ss ih =>
      refine ⟨after_nil h ▸ hall [] s ss rfl, ih fun before t behind heq => ?_⟩
      rw [← after_cons]
      exact hall (s :: before) t behind (congrArg (s :: ·) heq)

theorem stops?_eq_none_iff : s.stops? h = none ↔
    s.size ≤ maxSize ∧ (s.needed → h.setupFault h.calls s.setup = none) := by
  by_cases hsize : maxSize < s.size
  · simp [Step.stops?, hsize, Nat.not_le.mpr hsize]
  · cases hneeded : s.needed <;> simp [Step.stops?, hsize, hneeded, Nat.le_of_not_lt hsize]

theorem stops?_cases {e : Error} (hs : s.stops? h = some e) :
    maxSize < s.size ∧ e = .io .invalidInput ∨
      s.size ≤ maxSize ∧ s.needed ∧
        ∃ n, h.setupFault h.calls s.setup = some n ∧ e = .io (.os n) := by
  by_cases hsize : maxSize < s.size
  · rw [Step.stops?, if_pos hsize] at hs
    cases hs
    exact .inl ⟨hsize, rfl⟩
  · rw [Step.stops?, if_neg hsize] at hs
    split at hs
    · obtain ⟨n, hn, rfl⟩ := Option.map_eq_some_iff.mp hs
      rename_i hneeded
      exact .inr ⟨Nat.le_of_not_lt hsize, hneeded, n, hn, rfl⟩
    · cases hs

/-- What a step asks for is within bounds if the sizes of the buffers are. -/
theorem sizes_openingSteps (protocol : Protocol) (config : Config) :
    (∀ s ∈ openingSteps protocol config, s.size ≤ maxSize) ↔
      config.sendBuffer ≤ maxSize ∧ config.receiveBuffer ≤ maxSize := by
  have hnothing : 0 ≤ maxSize := Nat.zero_le _
  cases hacks : config.extendedAcks <;> cases hall : config.allNamespaces <;>
    simp [openingSteps, hacks, hall, Step.buffer, Step.option, Step.wish, or_imp, forall_and]

theorem passes_openingSteps {protocol : Protocol} {config : Config} :
    Passes h (openingSteps protocol config) ↔
      config.sendBuffer ≤ maxSize ∧ config.receiveBuffer ≤ maxSize ∧
        ∀ before s behind, openingSteps protocol config = before ++ s :: behind → s.needed →
          h.setupFault (after h before).calls s.setup = none := by
  rw [← and_assoc, ← sizes_openingSteps protocol config, passes_iff]
  simp only [stops?_eq_none_iff]
  constructor
  · intro hall
    refine ⟨fun s hs => ?_, fun before s behind heq => (hall before s behind heq).2⟩
    obtain ⟨before, behind, heq⟩ := List.append_of_mem hs
    exact (hall before s behind heq).1
  · rintro ⟨hsizes, hcalls⟩ before s behind heq
    refine ⟨hsizes s ?_, hcalls before s behind heq⟩
    rw [heq]
    exact List.mem_append_right _ (List.mem_cons_self ..)

/-- **A socket is opened step by step.** Whatever calls a host lets fail, a socket comes of an opening
just if both sizes are within bounds and each call that has to succeed does, given the calls before
it; the extended acknowledgements do not count. Then all the steps of the configuration were made, in
their order and each of them once, and nothing else was called; and the port is the one that was read
back. If no socket comes of it, then there is a first step that stopped the opening: a size out of
bounds, for which no call was made, or a call that failed, with its number; and no call was made
behind it. -/
theorem connect_by_steps (protocol : Protocol) (config : Config) (h : Host) :
    let steps := openingSteps protocol config
    let result := connect protocol config h
    ((∃ socket, result.1 = .ok socket) ↔
      config.sendBuffer ≤ maxSize ∧ config.receiveBuffer ≤ maxSize ∧
        ∀ before s behind, steps = before ++ s :: behind → s.needed →
          h.setupFault (after h before).calls s.setup = none) ∧
      (∀ socket, result.1 = .ok socket →
        result.2 = after h steps ∧ socket = ⟨after h steps, protocol, h.port, true⟩) ∧
      ∀ e, result.1 = .error e → ∃ before s behind, steps = before ++ s :: behind ∧
        Passes h before ∧
          (maxSize < s.size ∧ e = .io .invalidInput ∧ result.2 = after h before ∨
            s.size ≤ maxSize ∧ s.needed ∧ ∃ n, h.setupFault (after h before).calls s.setup = some n ∧
              e = .io (.os n) ∧ result.2 = after h (before ++ [s])) := by
  intro steps result
  have hresult : result = connect protocol config h := rfl
  rw [connect, setUp_eq] at hresult
  rw [← passes_openingSteps]
  rcases runAll_cases steps h with ⟨hpass, hrun⟩ | ⟨before, s, behind, e, heq, hpass, hstops, hrun⟩
  · rw [bind_of_ok hrun] at hresult
    have hok : result = (.ok ⟨after h steps, protocol, h.port, true⟩, after h steps) := hresult
    rw [hok]
    refine ⟨⟨fun _ => hpass, fun _ => ⟨_, rfl⟩⟩, ?_, ?_⟩
    · rintro socket ⟨⟩
      exact ⟨rfl, rfl⟩
    · rintro e ⟨⟩
  · rw [bind_of_error hrun] at hresult
    have herror : result = (.error e, after h (if maxSize < s.size then before else before ++ [s])) :=
      hresult
    rw [herror]
    refine ⟨⟨?_, fun hall => ?_⟩, ?_, ?_⟩
    · rintro ⟨_, ⟨⟩⟩
    · have hnone := passes_iff.mp hall before s behind heq
      rw [hstops] at hnone
      cases hnone
    · rintro socket ⟨⟩
    · rintro e ⟨⟩
      refine ⟨before, s, behind, heq, hpass, ?_⟩
      rcases stops?_cases hstops with ⟨hsize, he⟩ | ⟨hsize, hneeded, n, hfault, he⟩
      · exact .inl ⟨hsize, he, by rw [if_pos hsize]⟩
      · exact .inr ⟨hsize, hneeded, n, hfault, he, by rw [if_neg (Nat.not_lt.mpr hsize)]⟩

/-- The calls for a socket of two groups, on a host that lets none of them fail. -/
example : answers {} (openingSteps .route
      { sendBuffer := 64, receiveBuffer := 128, memberships := [5, 9] }) =
    [.socket 0 0, .setOption 1 7 64 0, .setOption 1 8 128 0, .setOption 270 11 1 0, .bind 16 0 0 0,
      .address 0, .setOption 270 1 5 0, .setOption 270 1 9 0] := by decide

end Netlink.Socket
