import Netlink.Link.Requests
import Netlink.Recording
import Netlink.Selector
import Netlink.Tool.Command
import Netlink.Tool.EventText

/-! # Carrying out commands

A command opens at most one connection, and writes what it has to show when it has succeeded; only a
recording and announcements are written as they arrive, and stay written if the command fails
later. -/

namespace Netlink.Tool

/-- What a command finds around it. -/
structure Surroundings (σ : Type) where
  /-- Opens a connection with these settings. -/
  connect : Config → Except Error (Connection σ)
  /-- What is on the standard input. -/
  input : Bytes := []
  /-- The contents of a file. -/
  contents : String → Except Error Bytes
  /-- Creates an empty file. -/
  create : String → Except Error Unit

structure Outcome (σ : Type) where
  result : Except Error Unit
  /-- What was written out. -/
  output : Bytes := []
  /-- The file that was written, and what was written to it. -/
  file : Option (String × Bytes) := none
  log : List Event := []
  /-- The connection that was opened, as it is in the end, and the settings it was opened with. -/
  connection : Option (Config × Connection σ) := none

/-- Something done over a connection, which may fail, and what it wrote before it did. -/
abbrev Work (σ : Type) := StateM (Connection σ) (Except Error Unit × Bytes)

namespace Work

variable {σ : Type} [Transport σ]

def silent (a : Action σ Unit) : Work σ := fun c =>
  let (result, c) := a c
  ((result, []), c)

/-- Something that writes a text if it succeeds. -/
def writing (a : Action σ String) : Work σ := fun c =>
  match a c with
  | (.ok text, c) => ((.ok (), Wire.Utf8.encode text), c)
  | (.error e, c) => ((.error e, []), c)

def showLinks (wanted : Selector) (style : Style) : Work σ :=
  writing do
    let links ← Connection.links
    return LinkText.list style (links.filter wanted.matchesLink)

/-- Changes an interface in one or two ways, or in none. -/
def changeLink (name : String) (up : Option Bool) (mtu : Option UInt32) : Work σ :=
  silent do
    if let some mtu := mtu then Connection.setLinkMtu name mtu
    if let some up := up then Connection.setLinkState name up

/-- A consumer for whom a dump need only take place. -/
def onlooker : Consumer Unit where
  accept _ seen := .taken seen

/-- Asks for all interfaces and records the dump. -/
def record : Work σ := fun c =>
  let c := { c with state := { c.state with sink := some {} } }
  let (result, c) := (do
    Connection.requestAllLinks 0 MessageType.getLink
    Connection.gather onlooker () : Action σ Unit) c
  ((result, (c.state.sink.map Sink.taken).getD []), c)

/-- Shows everything that is announced, until there is no more. -/
def monitor (style : Style) : Work σ := fun c =>
  let ((result, shown), c) := Connection.listen (EventText.listener style) "" c
  ((result, Wire.Utf8.encode shown), c)

end Work

namespace Surroundings

variable {σ : Type} [Transport σ]

def overConnection (s : Surroundings σ) (config : Config) (work : Work σ) : Outcome σ :=
  match s.connect config with
  | .error e => { result := .error e }
  | .ok c =>
    let ((result, output), c) := work c
    { result, output, log := c.state.log, connection := some (config, c) }

/-- Records a dump in a file, which is created before anything else, or writes it out. -/
def saveDump (s : Surroundings σ) (config : Config) : Option String → Outcome σ
  | none => s.overConnection config Work.record
  | some path =>
    match s.create path with
    | .error e => { result := .error e }
    | .ok () =>
      let o := s.overConnection config Work.record
      { o with output := [], file := some (path, o.output) }

/-- Shows the interfaces of a recorded dump, if all of it can be read. -/
def showDump (s : Surroundings σ) (style : Style) (file : Option String) : Outcome σ :=
  match file.elim (.ok s.input) s.contents with
  | .error e => { result := .error e }
  | .ok bytes =>
    let ⟨(result, links), log⟩ := Recording.replay Link.collect bytes []
    match result with
    | .error e => { result := .error e, log }
    | .ok _ => { result := .ok (), output := Wire.Utf8.encode (LinkText.list style links), log }

/-- The settings for monitoring: the groups of all topics are joined one by one. -/
def monitorConfig (config : Config) (topics : List Topic) (allNamespaces : Bool) : Config :=
  { config with allNamespaces, memberships := config.memberships ++ topics.flatMap Topic.groups }

end Surroundings

def Command.run {σ : Type} [Transport σ] (s : Surroundings σ) (style : Style) (config : Config) :
    Command → Outcome σ
  | .showLinks name upOnly => s.overConnection config (Work.showLinks { name, upOnly } style)
  | .deleteLink name => s.overConnection config (Work.silent (Connection.deleteLink name))
  | .changeLink name up mtu => s.overConnection config (Work.changeLink name up mtu)
  | .saveDump file => s.saveDump config file
  | .showDump file => s.showDump style file
  | .monitor topics allNamespaces =>
    s.overConnection (Surroundings.monitorConfig config topics allNamespaces) (Work.monitor style)

end Netlink.Tool
