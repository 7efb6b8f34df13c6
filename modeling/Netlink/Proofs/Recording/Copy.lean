import Netlink.Proofs.Conversation.DumpPass
import Netlink.Proofs.Recording.Replay

/-! # The copy of a dump

While a dump is read, its datagrams are copied to a sink as they are, one behind another. A datagram
may lack the padding of its last message, which the dump does not mind but a replay does: whatever
was copied behind such a datagram is off the grid. So the copy of a dump can be replayed exactly if
all its datagrams end on the grid. -/

namespace Netlink

/-! ## Copying -/

theorem Sink.write_ok {s s' : Sink} {data : Bytes} (h : s.write data = (.ok (), s')) :
    s' = { s with taken := s.taken ++ data } := by
  obtain ⟨taken, limit⟩ := s
  have hwrite : ∀ room : Nat,
      ((if data.length ≤ room then .ok () else .error (.io .sinkFull) : Except Error Unit),
        (⟨taken ++ data.take room, limit⟩ : Sink)) = (.ok (), s') →
      s' = ⟨taken ++ data, limit⟩ := by
    intro room hwritten
    rw [Prod.mk.injEq] at hwritten
    obtain ⟨houtcome, rfl⟩ := hwritten
    split at houtcome
    · rename_i hroom
      rw [List.take_of_length_le hroom]
    · cases houtcome
  cases limit with
  | none => exact hwrite data.length h
  | some limit => exact hwrite (limit - taken.length) h

theorem Conversation.sink_of_record {c c' : Conversation} {sink : Sink} {data : Bytes}
    (hsink : c.sink = some sink) (h : c.record data = (.ok (), c')) :
    c'.sink = some { sink with taken := sink.taken ++ data } := by
  unfold record at h
  rw [hsink] at h
  dsimp only at h
  rw [Prod.mk.injEq] at h
  obtain ⟨hwritten, rfl⟩ := h
  exact congrArg some (Sink.write_ok (Prod.ext hwritten rfl))

namespace Dump

variable {β : Type} {ks : List (Consumer β)} {d : Datagram} {c c' : Conversation}
  {memory memory' : β} {sink : Sink}

theorem sink_of_takes {ds : List Datagram} (hsome : ks ≠ []) (hsink : c.sink = some sink)
    (h : (reader ks).Takes ds c memory c' memory') :
    c'.sink = some { sink with taken := sink.taken ++ ds.flatMap (·.data) } := by
  induction h generalizing sink with
  | nil => rw [hsink, List.flatMap_nil, List.append_nil]
  | @cons d ds c c₁ c' memory memory₁ memory' hstep later ih =>
    change step ks d (c.heard d) memory = .more c₁ memory₁ at hstep
    obtain ⟨-, c₀, p, hrecord, -⟩ := step_more hsome hstep
    have hheard : (c.heard d).sink = some sink := hsink
    have hrecorded := Conversation.sink_of_record hheard hrecord
    have hbare := bare_step ks d (c.heard d) memory
    rw [hstep, hrecord] at hbare
    have hkept : c₁.sink = c₀.sink := (Conversation.eq_of_bare hbare).2.2.2.2
    rw [ih (hkept.trans hrecorded), List.flatMap_cons, List.append_assoc]

/-- A dump that ends well has copied all datagrams that it has received. -/
theorem sink_of_readDump {σ : Type} [Transport σ] {c : Connection σ} (hsome : ks ≠ [])
    (hsink : c.state.sink = some sink) (hok : (Connection.readDump ks memory c).1.1 = .ok ()) :
    let after := Connection.readDump ks memory c
    let patience := c.state.config.timeout
    ∃ received, (Transport.arrivals patience c.endpoint).1 =
        received ++ (Transport.arrivals patience after.2.endpoint).1 ∧
      after.2.state.sink = some { sink with taken := sink.taken ++ received.flatMap (·.data) } := by
  intro after patience
  obtain ⟨before, last, c₁, memory₁, harrivals, htakes, hlast, -⟩ := readDump_ok hsome hok
  obtain ⟨m, c₀, -, hrecord, -⟩ := step_ok hsome hlast
  have hearlier := sink_of_takes hsome hsink htakes
  change (c₁.heard last).sink = _ at hearlier
  have hrecorded := Conversation.sink_of_record hearlier hrecord
  have hbare := bare_step ks last (c₁.heard last) memory₁
  rw [hlast, hrecord] at hbare
  have hkept : after.2.state.sink = c₀.sink := (Conversation.eq_of_bare hbare).2.2.2.2
  refine ⟨before ++ [last], ?_, ?_⟩
  · rw [harrivals, List.append_assoc]
    rfl
  · rw [hkept, hrecorded, List.flatMap_append, List.flatMap_singleton, List.append_assoc]

end Dump

/-! ## Replaying the copy -/

namespace Recording

def keep (m : Message) (kept : List Message) : Handled (List Message) := .taken (kept ++ [m])

theorem hand_keep (ms kept : List Message) :
    ({ accept := keep } : Consumer (List Message)).hand ms kept = (.ok (), kept ++ ms) := by
  induction ms generalizing kept with
  | nil => rw [Consumer.hand, List.append_nil]
  | cons m ms ih =>
    have hlater := ih (kept ++ [m])
    rw [List.append_assoc] at hlater
    exact hlater

/-- A recording whose replay keeps these messages consists of them and their padding. -/
theorem length_of_replay {bs : Bytes} {total : Nat} {ms : List Message}
    (h : (replay keep bs []).value = (.ok total, ms)) :
    bs.length = (ms.flatMap fun m => Wire.padded m.bytes).length := by
  obtain ⟨ps, rfl, hfit⟩ := packets_of_replay (congrArg Prod.fst h)
  have hreplay := replay_records keep ps hfit []
  rw [hand_keep, h] at hreplay
  obtain ⟨-, rfl⟩ := Prod.mk.inj hreplay
  rw [Packet.length_records ps 0, List.nil_append]

/-- Nothing is wrong with the datagram, and its messages may stand in a recording. -/
structure Plain (d : Datagram) : Prop where
  clean : (Frame.walk d.data).complaint? = none
  fits : ∀ f ∈ (Frame.walk d.data).frames, f.bytes.length ≤ maxRecord

instance (d : Datagram) : Decidable (Plain d) :=
  decidable_of_iff ((Frame.walk d.data).complaint? = none ∧
      ∀ f ∈ (Frame.walk d.data).frames, f.bytes.length ≤ maxRecord)
    ⟨fun h => ⟨h.1, h.2⟩, fun h => ⟨h.clean, h.fits⟩⟩

/-- The messages of datagrams, as if the kernel had sent them. -/
def messages (ds : List Datagram) : List Message :=
  ds.flatMap fun d => (Frame.walk d.data).frames.map (Frame.message 0)

theorem Plain.packets {d : Datagram} (h : Plain d) :
    ∃ ps, Wire.padded d.data = Packet.records ps ∧
      (Frame.walk d.data).frames.map (Frame.message 0) = ps.map (Packet.message 0) ∧
      ∀ p ∈ ps, Fits p := by
  obtain ⟨ps, hps, hmessages⟩ := Frame.packets_of_clean h.clean
  refine ⟨ps, hps, hmessages 0, fun p hp => ?_⟩
  have hmem : p.message 0 ∈ (Frame.walk d.data).frames.map (Frame.message 0) := by
    rw [hmessages 0]
    exact List.mem_map_of_mem hp
  obtain ⟨f, hf, hsame⟩ := List.mem_map.mp hmem
  have hbytes : f.bytes = p.bytes := congrArg Message.bytes hsame
  rw [Fits, ← hbytes]
  exact h.fits f hf

variable {ds : List Datagram}

theorem length_messages (hplain : ∀ d ∈ ds, Plain d) :
    ((messages ds).flatMap fun m => Wire.padded m.bytes).length =
      (ds.flatMap fun d => Wire.padded d.data).length := by
  induction ds with
  | nil => rfl
  | cons d ds ih =>
    obtain ⟨ps, hps, hmessages, -⟩ := (hplain d List.mem_cons_self).packets
    have hlater := ih fun d hd => hplain d (List.mem_cons_of_mem _ hd)
    have hsplit : messages (d :: ds) =
        (Frame.walk d.data).frames.map (Frame.message 0) ++ messages ds := List.flatMap_cons
    rw [hsplit, List.flatMap_append, List.length_append, hlater, hmessages,
      ← Packet.length_records ps 0, ← hps, List.flatMap_cons, List.length_append]

/-- Padding every datagram adds nothing exactly if all of them end on the grid. -/
theorem length_contents_iff :
    (ds.flatMap (·.data)).length = (ds.flatMap fun d => Wire.padded d.data).length ↔
      ∀ d ∈ ds, d.data.length % 4 = 0 := by
  have hle : ∀ ds : List Datagram,
      (ds.flatMap (·.data)).length ≤ (ds.flatMap fun d => Wire.padded d.data).length := by
    intro ds
    induction ds with
    | nil => exact Nat.le_refl 0
    | cons d ds ih =>
      have hpad := Wire.le_align4 d.data.length
      rw [List.flatMap_cons, List.flatMap_cons, List.length_append, List.length_append,
        Wire.length_padded]
      omega
  -- no datagram is longer than with its padding, so the lengths agree only if all of them do
  induction ds with
  | nil => exact ⟨nofun, fun _ => rfl⟩
  | cons d ds ih =>
    have hlater := hle ds
    have hpad := Wire.le_align4 d.data.length
    have hgrid := Wire.align4_mod d.data.length
    rw [List.flatMap_cons, List.flatMap_cons, List.length_append, List.length_append,
      Wire.length_padded, List.forall_mem_cons]
    constructor
    · intro h
      have hd : Wire.align4 d.data.length = d.data.length := by omega
      have hds : (ds.flatMap (·.data)).length = (ds.flatMap fun d => Wire.padded d.data).length := by
        omega
      rw [hd] at hgrid
      exact ⟨hgrid, ih.mp hds⟩
    · rintro ⟨hd, hds⟩
      rw [Wire.align4_of_mod hd, ih.mpr hds]

theorem packets_of_grid (hplain : ∀ d ∈ ds, Plain d) (hgrid : ∀ d ∈ ds, d.data.length % 4 = 0) :
    ∃ ps, ds.flatMap (·.data) = Packet.records ps ∧ messages ds = ps.map (Packet.message 0) ∧
      ∀ p ∈ ps, Fits p := by
  induction ds with
  | nil => exact ⟨[], rfl, rfl, nofun⟩
  | cons d ds ih =>
    obtain ⟨hplain₁, hplain⟩ := List.forall_mem_cons.mp hplain
    obtain ⟨hgrid₁, hgrid⟩ := List.forall_mem_cons.mp hgrid
    obtain ⟨ps, hps, hmessages, hfit⟩ := hplain₁.packets
    obtain ⟨qs, hqs, hlater, hfit'⟩ := ih hplain hgrid
    rw [Wire.padded_of_mod hgrid₁] at hps
    refine ⟨ps ++ qs, ?_, ?_, ?_⟩
    · rw [List.flatMap_cons, hps, hqs, Packet.records_append]
    · rw [List.map_append, ← hmessages, ← hlater]
      exact List.flatMap_cons
    · intro p hp
      rcases List.mem_append.mp hp with hp | hp
      · exact hfit p hp
      · exact hfit' p hp

theorem replay_contents_iff (hplain : ∀ d ∈ ds, Plain d) :
    (replay keep (ds.flatMap (·.data)) []).value = (.ok (messages ds).length, messages ds) ↔
      ∀ d ∈ ds, d.data.length % 4 = 0 := by
  constructor
  · intro h
    have hlength := length_of_replay h
    rw [length_messages hplain] at hlength
    exact length_contents_iff.mp hlength
  · intro hgrid
    obtain ⟨ps, hps, hmessages, hfit⟩ := packets_of_grid hplain hgrid
    rw [hps, replay_records keep ps hfit [], hand_keep, hmessages, List.nil_append, List.length_map]
    rfl

/-- **A copied dump can be replayed if its datagrams end on the grid.** A dump that ends well has
copied what it received. If the datagrams are nothing but messages that may stand in a recording, then
replaying the copy gives exactly these messages, unless the padding of some datagram's last message
is missing: then it does not. -/
theorem replay_copy_iff {σ β : Type} [Transport σ] {ks : List (Consumer β)} {memory : β}
    {c : Connection σ} {sink : Sink} (hsome : ks ≠ []) (hsink : c.state.sink = some sink)
    (hplain : ∀ d ∈ (Transport.arrivals c.state.config.timeout c.endpoint).1, Plain d)
    (hok : (Connection.readDump ks memory c).1.1 = .ok ()) :
    let after := Connection.readDump ks memory c
    let patience := c.state.config.timeout
    ∃ received copy, (Transport.arrivals patience c.endpoint).1 =
        received ++ (Transport.arrivals patience after.2.endpoint).1 ∧
      after.2.state.sink = some { sink with taken := sink.taken ++ copy } ∧
      ((replay keep copy []).value = (.ok (messages received).length, messages received) ↔
        ∀ d ∈ received, d.data.length % 4 = 0) := by
  intro after patience
  obtain ⟨received, harrivals, hcopied⟩ := Dump.sink_of_readDump hsome hsink hok
  refine ⟨received, received.flatMap (·.data), harrivals, hcopied, replay_contents_iff ?_⟩
  intro d hd
  refine hplain d ?_
  rw [harrivals]
  exact List.mem_append_left _ hd

open Dump (sampleObject sampleDone sampleTaker)

/-- A conversation that waits for dump 7 and copies it, over an endpoint that brings some bytes and
then DONE. -/
def sampleCopied (first : Bytes) : Connection Script where
  endpoint := { queue := [
    { outcome := .datagram { data := first } },
    { outcome := .datagram { data := (sampleDone 7).record } }] }
  state := { protocol := .route, port := 42, config := {}, seq := 7, dumpSeq := 7, sink := some {} }

theorem replay_copy_iff_sample :
    let c := sampleCopied (sampleObject 7 [1, 2, 3] (by decide)).record
    let after := Connection.readDump [sampleTaker 0] () c
    [sampleTaker 0] ≠ [] ∧ c.state.sink = some {} ∧
      (∀ d ∈ (Transport.arrivals c.state.config.timeout c.endpoint).1, Plain d) ∧
      after.1.1 = .ok () ∧
      ∃ received copy, after.2.state.sink = some { taken := copy } ∧
        (replay keep copy []).value = (.ok (messages received).length, messages received) := by
  have hok : (Connection.readDump [sampleTaker 0] ()
      (sampleCopied (sampleObject 7 [1, 2, 3] (by decide)).record)).1.1 = .ok () :=
    eq_ok_of_isOk (by decide +kernel)
  intro c after
  have hsome : [sampleTaker 0] ≠ [] := List.cons_ne_nil _ _
  have hplain : ∀ d ∈ (Transport.arrivals c.state.config.timeout c.endpoint).1, Plain d := by
    decide +kernel
  have hgrid : ∀ d ∈ (Transport.arrivals c.state.config.timeout c.endpoint).1,
      d.data.length % 4 = 0 := by decide +kernel
  obtain ⟨received, copy, harrivals, hcopied, hreplay⟩ := replay_copy_iff hsome rfl hplain hok
  refine ⟨hsome, rfl, hplain, hok, received, copy, hcopied, hreplay.mpr fun d hd => hgrid d ?_⟩
  rw [harrivals]
  exact List.mem_append_left _ hd

/-- A message of nineteen bytes comes without its padding. The dump ends well, and the replay of what
was copied fails behind that message. -/
theorem unpadded_copy_not_replayed :
    let object := sampleObject 7 [1, 2, 3] (by decide)
    let c := sampleCopied object.bytes
    let after := Connection.readDump [sampleTaker 0] () c
    let copy := object.bytes ++ (sampleDone 7).record
    (∀ d ∈ (Transport.arrivals c.state.config.timeout c.endpoint).1, Plain d) ∧
      after.1.1 = .ok () ∧ after.2.state.sink = some { taken := copy } ∧
      (replay keep copy []).value.1 = .error (.framing (.malformedRecord 50331648 20)) := by
  have hok : (Connection.readDump [sampleTaker 0] ()
      (sampleCopied (sampleObject 7 [1, 2, 3] (by decide)).bytes)).1.1 = .ok () :=
    eq_ok_of_isOk (by decide +kernel)
  have hfails : (replay keep ((sampleObject 7 [1, 2, 3] (by decide)).bytes ++
      (sampleDone 7).record) []).value.1 = .error (.framing (.malformedRecord 50331648 20)) := by
    cbv
  intro object c after copy
  exact ⟨by decide +kernel, hok, by decide +kernel, hfails⟩

end Recording
end Netlink
