import Netlink.Endpoint.Script
import Netlink.Proofs.Link.Reading
import Netlink.Proofs.Recording.Extent
import Netlink.Tool.Program

/-! # Showing a recorded dump

A recording is shown as a whole or not at all. What is shown, and the code that the program ends
with, follow from what stands behind the records at the front that can be shown: nothing, or bytes
that are no record, or an interface that cannot be read. -/

namespace Netlink

/-! ## Interfaces in a recording -/

namespace Packet

/-- The interfaces that a message announces: one if it is of the right type. -/
def links (p : Packet) : List Link :=
  if p.header.type = MessageType.newLink then (Link.read p.payload).result.toOption.toList else []

/-- If the message announces an interface, then this can be read. -/
def Readable (p : Packet) : Prop :=
  p.header.type = MessageType.newLink → ∃ l, (Link.read p.payload).result = .ok l

theorem payload_message (p : Packet) (sender : UInt32) :
    (p.message sender).payload = p.payload := by
  rw [message, Message.payload, bytes, List.drop_left' p.header.length_encode]

end Packet

namespace Link

theorem collect_readable {p : Packet} (h : p.Readable) (links : List Link) :
    (collect (p.message 0) links).value = (.ok (), links ++ p.links) := by
  have htype : (p.message 0).header.type = p.header.type := rfl
  rw [collect, htype, p.payload_message, Packet.links]
  by_cases hlink : p.header.type = MessageType.newLink
  · obtain ⟨l, hl⟩ := h hlink
    simp [hlink, Handled.reading, hl, Except.toOption]
  · simp [hlink, Handled.taken]

theorem collect_unreadable {p : Packet} (h : ¬ p.Readable) (links : List Link) :
    ∃ e, (collect (p.message 0) links).value = (.error e, links) ∧ e.isFatal = false := by
  have htype : (p.message 0).header.type = p.header.type := rfl
  rw [collect, htype, p.payload_message]
  by_cases hlink : p.header.type = MessageType.newLink
  · cases hread : (read p.payload).result with
    | ok l => exact absurd (fun _ => ⟨l, hread⟩) h
    | error e =>
      refine ⟨e, ?_, harmless_read p.payload e hread⟩
      simp [hlink, Handled.reading, hread]
  · exact absurd (fun hnew => absurd hnew hlink) h

/-- Messages that can be read are collected in order. -/
theorem hand_collect {ps : List Packet} (h : ∀ p ∈ ps, p.Readable) (links : List Link) :
    ({ accept := collect } : Consumer (List Link)).hand (ps.map (Packet.message 0)) links =
      (.ok (), links ++ ps.flatMap Packet.links) := by
  induction ps generalizing links with
  | nil => simp [Consumer.hand]
  | cons p ps ih =>
    obtain ⟨hp, hps⟩ := List.forall_mem_cons.mp h
    rw [List.map_cons, Consumer.hand, collect_readable hp]
    dsimp only
    rw [ih hps, List.flatMap_cons, List.append_assoc]

end Link

namespace Recording

/-! ## How far a recording can be shown -/

/-- The bytes begin with these records, and all of them can be shown. -/
structure Shown (bs : Bytes) (ps : List Packet) (rest : Bytes) : Prop where
  split : bs = Packet.records ps ++ rest
  fit : ∀ p ∈ ps, Fits p
  readable : ∀ p ∈ ps, p.Readable

/-- There are bytes, but too few for the record that they begin. -/
def Short (rest : Bytes) : Prop := rest ≠ [] ∧ ¬ Misdeclared rest ∧ rest.length < needed rest

/-- A record stands at the front whose interface cannot be read. -/
def Unreadable (rest : Bytes) : Prop :=
  ∃ p tail, Fits p ∧ rest = p.record ++ tail ∧ ¬ p.Readable

/-- What can stand behind records that are shown, and the code that the program ends with. -/
inductive Stop : Bytes → Nat → Prop
  | finish : Stop [] 0
  | misdeclared {rest : Bytes} (h : Misdeclared rest) : Stop rest 2
  | short {rest : Bytes} (h : Short rest) : Stop rest 1
  | unreadable {rest : Bytes} (h : Unreadable rest) : Stop rest 1

theorem Shown.cons {p : Packet} {ps : List Packet} {bs rest : Bytes} (hp : Fits p)
    (hread : p.Readable) (h : Shown bs ps rest) : Shown (p.record ++ bs) (p :: ps) rest where
  split := by rw [h.split, Packet.records_cons, List.append_assoc]
  fit := List.forall_mem_cons.mpr ⟨hp, h.fit⟩
  readable := List.forall_mem_cons.mpr ⟨hread, h.readable⟩

theorem stop_of_none {rest : Bytes} (h : next? rest = none) : ∃ code, Stop rest code := by
  by_cases hend : rest = []
  · exact ⟨0, hend ▸ .finish⟩
  · by_cases hmisdeclared : Misdeclared rest
    · exact ⟨2, .misdeclared hmisdeclared⟩
    · have hfew := (next?_eq_none_iff_fault.mp h).resolve_left hmisdeclared
      exact ⟨1, .short ⟨hend, hmisdeclared, hfew⟩⟩

/-- Whatever the bytes are, they can be shown up to some stop. -/
theorem exists_stop (bs : Bytes) : ∃ ps rest code, Shown bs ps rest ∧ Stop rest code := by
  obtain ⟨ps, rest, hbegins⟩ := exists_begins bs
  obtain ⟨hbs, hfit, hlast⟩ := hbegins
  induction ps generalizing bs with
  | nil =>
    obtain ⟨code, hstop⟩ := stop_of_none (next?_eq_none_iff.mpr hlast)
    exact ⟨[], rest, code, ⟨hbs, nofun, nofun⟩, hstop⟩
  | cons p ps ih =>
    obtain ⟨hp, hps⟩ := List.forall_mem_cons.mp hfit
    rw [Packet.records_cons, List.append_assoc] at hbs
    rw [hbs]
    by_cases hread : p.Readable
    · obtain ⟨qs, rest', code, hshown, hstop⟩ := ih _ rfl hps
      exact ⟨p :: qs, rest', code, hshown.cons hp hread, hstop⟩
    · exact ⟨[], _, 1, ⟨rfl, nofun, nofun⟩, .unreadable ⟨p, _, hp, rfl, hread⟩⟩

/-! ## The code -/

open Tool (exitCode)

/-- Behind the records that are shown a replay comes to the end or fails as the stop says. -/
theorem replayFrom_stop {rest : Bytes} {code : Nat} (h : Stop rest code) (offset count : Nat)
    (links : List Link) :
    let run := replayFrom Link.collect offset count rest links
    exitCode run.1.value.1 = code ∧ (code = 0 → run.1.value.2 = links) := by
  have hfault (hsome : rest ≠ []) (hnone : next? rest = none) :
      (replayFrom Link.collect offset count rest links).1.value.1 = .error (fault offset rest) := by
    rw [replayFrom_of_none hsome hnone]
    rfl
  cases h with
  | finish =>
    rw [replayFrom_nil]
    exact ⟨rfl, fun _ => rfl⟩
  | misdeclared h =>
    have hsome : rest ≠ [] := by
      rintro rfl
      exact absurd h.1 (by decide)
    refine ⟨?_, nofun⟩
    rw [hfault hsome (next?_eq_none_iff_fault.mpr (.inl h)), fault_eq, if_pos h]
    rfl
  | short h =>
    obtain ⟨hsome, hfair, hfew⟩ := h
    refine ⟨?_, nofun⟩
    rw [hfault hsome (next?_eq_none_iff_fault.mpr (.inr hfew)), fault_eq, if_neg hfair]
    rfl
  | unreadable h =>
    obtain ⟨p, tail, hp, hrest, hread⟩ := h
    obtain ⟨e, hcollect, hharmless⟩ := Link.collect_unreadable hread links
    obtain ⟨⟨value, log⟩, hrefused⟩ : ∃ x, Link.collect (p.message 0) links = x := ⟨_, rfl⟩
    rw [hrefused] at hcollect
    obtain rfl : value = (.error e, links) := hcollect
    refine ⟨?_, nofun⟩
    rw [hrest, replayFrom_record hp, hrefused]
    simp [exitCode, hharmless]

end Recording

namespace Tool

open Recording (Shown Stop Short Unreadable Misdeclared)

variable {σ : Type} {s : Surroundings σ}

theorem showDump_stop {style : Style} {file : Option String} {bytes rest : Bytes} {code : Nat}
    {ps : List Packet} (hbytes : file.elim (.ok s.input) s.contents = .ok bytes)
    (hshown : Shown bytes ps rest) (hstop : Stop rest code) :
    let o := s.showDump style file
    exitCode o.result = code ∧
      o.output = if code = 0 then
          Wire.Utf8.encode (LinkText.list style (ps.flatMap Packet.links))
        else [] := by
  intro o
  have hhand := Link.hand_collect hshown.readable []
  obtain ⟨log, hreplay⟩ := Recording.replayFrom_append ps hshown.fit hhand rest 0 0
  obtain ⟨hcode, hwhole⟩ := Recording.replayFrom_stop hstop (0 + (Packet.records ps).length)
    (0 + ps.length) ([] ++ ps.flatMap Packet.links)
  obtain ⟨⟨⟨⟨result, links⟩, log'⟩, total⟩, hlater⟩ : ∃ x, Recording.replayFrom Link.collect
    (0 + (Packet.records ps).length) (0 + ps.length) rest ([] ++ ps.flatMap Packet.links) = x :=
    ⟨_, rfl⟩
  rw [hlater] at hreplay hcode hwhole
  rw [← hshown.split] at hreplay
  have ho : o = s.showDump style file := rfl
  rw [Surroundings.showDump, hbytes] at ho
  dsimp only at ho
  rw [Recording.replay, hreplay] at ho
  cases result with
  | ok u =>
    obtain rfl : 0 = code := hcode
    obtain rfl : links = [] ++ ps.flatMap Packet.links := hwhole rfl
    rw [ho]
    exact ⟨rfl, rfl⟩
  | error e =>
    have hcode' : exitCode (.error e) = code := hcode
    have hfails : code ≠ 0 := by
      rw [← hcode', exitCode]
      split <;> decide
    rw [ho, if_neg hfails]
    exact ⟨hcode, rfl⟩

/-- **A recorded dump is shown as a whole or not at all.** Over any bytes, showing a recorded dump
ends with zero just if the bytes are nothing but records, and every interface among them can be
read; then these interfaces are written out, in order. Otherwise nothing is written. The code is two
if behind records that can be shown stands a header that declares a length which no record has, and
it is one if what stands there is too short for a record or an interface that cannot be read. -/
theorem showDump_whole_or_nothing [Transport σ] {words : List String} {i : Invocation}
    {file : Option String} {bytes : Bytes} (hread : Invocation.read words = .ok i)
    (hcommand : i.command = .showDump file)
    (hbytes : file.elim (.ok s.input) s.contents = .ok bytes) :
    let exit := program s words
    (exit.code = 0 ↔ ∃ ps, Shown bytes ps []) ∧
      (∀ ps, Shown bytes ps [] →
        exit.output = Wire.Utf8.encode (LinkText.list i.style (ps.flatMap Packet.links))) ∧
      (exit.code ≠ 0 → exit.output = []) ∧
      (exit.code = 2 ↔ ∃ ps rest, Shown bytes ps rest ∧ Misdeclared rest) ∧
      (exit.code = 1 ↔ ∃ ps rest, Shown bytes ps rest ∧ (Short rest ∨ Unreadable rest)) ∧
      (exit.code = 0 ∨ exit.code = 1 ∨ exit.code = 2) := by
  intro exit
  have hexit : exit = (s.showDump i.style file).exit := by
    simp only [exit, program, hread, Invocation.run, Command.run, hcommand]
  have hrun {ps rest code} (hshown : Shown bytes ps rest) (hstop : Stop rest code) :
      exit.code = code ∧ exit.output = if code = 0 then
          Wire.Utf8.encode (LinkText.list i.style (ps.flatMap Packet.links))
        else [] := by
    rw [hexit]
    exact showDump_stop hbytes hshown hstop
  obtain ⟨ps, rest, code, hshown, hstop⟩ := Recording.exists_stop bytes
  obtain ⟨hcode, houtput⟩ := hrun hshown hstop
  refine ⟨⟨?_, fun ⟨qs, hqs⟩ => (hrun hqs .finish).1⟩, fun qs hqs => (hrun hqs .finish).2, ?_,
    ⟨?_, fun ⟨qs, rest', hqs, hmis⟩ => (hrun hqs (.misdeclared hmis)).1⟩, ⟨?_, ?_⟩, ?_⟩
  · intro h0
    cases hstop with
    | finish => exact ⟨ps, hshown⟩
    | misdeclared | short | unreadable => omega
  · intro hne
    rw [houtput, if_neg (by omega)]
  · intro h2
    cases hstop with
    | misdeclared h => exact ⟨ps, rest, hshown, h⟩
    | finish | short | unreadable => omega
  · intro h1
    cases hstop with
    | short h => exact ⟨ps, rest, hshown, .inl h⟩
    | unreadable h => exact ⟨ps, rest, hshown, .inr h⟩
    | finish | misdeclared => omega
  · rintro ⟨qs, rest', hqs, hshort | hunreadable⟩
    · exact (hrun hqs (.short hshort)).1
    · exact (hrun hqs (.unreadable hunreadable)).1
  · cases hstop <;> simp [hcode]

open Dump (sampleObject)

/-- Some bytes on the standard input, and nothing else around. -/
def sampleSurroundings (input : Bytes) : Surroundings Script where
  connect _ := .error .closed
  input
  contents _ := .ok []
  create _ := .ok ()

/-- What tells of an interface that is up and has a name. -/
def samplePayload : Bytes :=
  InterfaceInfo.encode { index := 2, flags := DeviceFlag.up } ++
    Attribute.encodeAll [Attribute.ofText Link.nameType "lo"]

/-- An interface is shown, unless a header behind it declares fifteen bytes. -/
theorem showDump_whole_or_nothing_sample :
    let words := ["link", "showdump"]
    let p := sampleObject 7 samplePayload (by decide)
    let whole := program (sampleSurroundings p.record) words
    let torn := program (sampleSurroundings (p.record ++ 15 :: Wire.zeros 15)) words
    Invocation.read words = .ok ⟨⟨false, false⟩, none, .showDump none⟩ ∧ whole.code = 0 ∧
      whole.output =
        Wire.Utf8.encode "2: lo: <UP> mtu 0 state UNKNOWN\n    link/unknown\n" ∧
      torn.code = 2 ∧ torn.output = [] := by
  have hreadable : (sampleObject 7 samplePayload (by decide)).Readable := by
    intro _
    have hok : (Link.read samplePayload).result.isOk = true := by decide +kernel
    cases hlink : (Link.read samplePayload).result with
    | ok l => exact ⟨l, hlink⟩
    | error e =>
      rw [hlink] at hok
      cases hok
  intro words p whole torn
  have hread : Invocation.read words = .ok ⟨⟨false, false⟩, none, .showDump none⟩ := by rfl
  have hfits : Recording.Fits p := by
    unfold Recording.Fits
    decide +kernel
  have hnothing (rest : Bytes) : Shown rest [] rest := ⟨rfl, nofun, nofun⟩
  have hone (rest : Bytes) : Shown (p.record ++ rest) [p] rest := (hnothing rest).cons hfits hreadable
  have hall : Shown p.record [p] [] := by simpa using hone []
  have htext : LinkText.list ⟨false, false⟩ p.links =
      "2: lo: <UP> mtu 0 state UNKNOWN\n    link/unknown\n" := by decide +kernel
  have hmisdeclared : Misdeclared (15 :: Wire.zeros 15) := by decide +kernel
  obtain ⟨hzero, hlinks, -⟩ :=
    showDump_whole_or_nothing (s := sampleSurroundings p.record) hread rfl rfl
  obtain ⟨-, -, hsilent, htwo, -⟩ := showDump_whole_or_nothing
    (s := sampleSurroundings (p.record ++ 15 :: Wire.zeros 15)) hread rfl rfl
  have hcode : torn.code = 2 := htwo.mpr ⟨[p], _, hone _, hmisdeclared⟩
  refine ⟨hread, hzero.mpr ⟨[p], hall⟩, ?_, hcode, hsilent ?_⟩
  · rw [← htext]
    simpa using hlinks [p] hall
  · change torn.code ≠ 0
    rw [hcode]
    decide

end Tool
end Netlink
