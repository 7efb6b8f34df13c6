import Netlink.Config
import Netlink.Protocol
import Netlink.Tool.Grammar
import Netlink.Tool.LinkText

/-! # Commands

What the tool can be told to do, and the words by which it is told. The same commands can be read
with or without the options that apply to all of them: a caller that has its own settings leaves
them out (`Command.read`), the program itself reads both (`Invocation.read`). -/

namespace Netlink.Tool

inductive Topic where
  | link
  | address
  | route
  | neighbour
  | namespaceId
  | all
  deriving DecidableEq, Repr

namespace Topic

def words : List (String × Topic) := [
  ("link", link), ("address", address), ("route", route), ("neigh", neighbour),
  ("nsid", namespaceId), ("all", all)]

/-- The multicast groups that a topic is announced to. -/
def groups : Topic → List UInt32
  | link => [RouteGroup.link]
  | address => [RouteGroup.ipv4Address, RouteGroup.ipv6Address]
  | route => [RouteGroup.ipv4Route, RouteGroup.ipv6Route]
  | neighbour => [RouteGroup.neighbour]
  | namespaceId => [RouteGroup.namespaceId]
  | all => [
    RouteGroup.link, RouteGroup.ipv4Address, RouteGroup.ipv6Address, RouteGroup.ipv4Route,
    RouteGroup.ipv6Route, RouteGroup.neighbour, RouteGroup.namespaceId]

end Topic

inductive Command where
  /-- Shows the interfaces of a name, or all, and perhaps only those that are up. -/
  | showLinks (name : Option String) (upOnly : Bool)
  | deleteLink (name : String)
  /-- Changes how long a packet may be, and then whether the interface is up. -/
  | changeLink (name : String) (up : Option Bool) (mtu : Option UInt32)
  /-- Records a dump of all interfaces in a file, or writes it out. -/
  | saveDump (file : Option String)
  /-- Shows the interfaces of a recorded dump, read from a file or from the input. -/
  | showDump (file : Option String)
  /-- Shows what is announced about some topics. -/
  | monitor (topics : List Topic) (allNamespaces : Bool)
  deriving DecidableEq, Repr

namespace Command

/-- What a command needs of the world's files before it can begin. -/
inductive FileUse where
  | nothing
  /-- What is on the standard input. -/
  | input
  /-- The contents of a file. -/
  | contents (path : String)
  /-- An empty file. -/
  | created (path : String)
  deriving DecidableEq, Repr

def fileUse : Command → FileUse
  | .showDump none => .input
  | .showDump (some path) => .contents path
  | .saveDump (some path) => .created path
  | _ => .nothing

/-! ## Words -/

def flag (name : String) : OptionSpec := { name }

/-- The commands about interfaces, under their names; each knows the shared options. -/
def linkSpec (names : List String) (shared : List OptionSpec) : CommandSpec :=
  let anyDevice : OperandSpec := { name := "dev" }
  let device : OperandSpec := { anyDevice with required := true }
  let file : OperandSpec := { name := "file", kind := .path }
  let mtu : OptionSpec := { name := "mtu", value := some (.integer 4294967295) }
  { names
    options := shared
    subcommands := [
      { names := ["show"], options := flag "up" :: shared, operands := [anyDevice] },
      { names := ["del"], options := shared, operands := [device] },
      { names := ["set"]
        options := flag "up" :: flag "down" :: mtu :: shared
        operands := [device]
        conflicts := [("up", "down")] },
      { names := ["save"], options := shared, operands := [file] },
      { names := ["showdump"], options := shared, operands := [file] }] }

/-- The command that monitors, under its names. -/
def monitorSpec (names : List String) (shared : List OptionSpec) : CommandSpec :=
  let object : OperandSpec := {
    name := "object", kind := .oneOf (Topic.words.map (·.1)), repeated := true }
  { names, options := flag "all-nsid" :: shared, operands := [object] }

def spec : CommandSpec := {
  names := ["ip"]
  subcommands := [linkSpec ["link"] [], monitorSpec ["monitor"] []]
  needsSubcommand := true }

/-! ## Reading -/

/-- The number that an option was given; what has been read of it is one. -/
def number? (m : Matches) (option : String) : Option Nat :=
  ((m.value? option).bind readInteger).map Int.toNat

/-- Whether an interface is to be up or down, or neither. -/
def stateOf (m : Matches) : Option Bool :=
  if m.has "up" then some true else if m.has "down" then some false else none

/-- The topics that were named; naming none means all. -/
def topicsOf (m : Matches) : List Topic :=
  match (m.operandsOf "object").filterMap (List.lookup · Topic.words) with
  | [] => [.all]
  | topics => topics

/-- The command that was read. A reading without one has been refused already. -/
def ofReading? : Reading → Option Command
  | [_, ("link", _)] => some (.showLinks none false)
  | [_, ("link", _), ("show", m)] => some (.showLinks (m.operand? "dev") (m.has "up"))
  | [_, ("link", _), ("del", m)] => (m.operand? "dev").map .deleteLink
  | [_, ("link", _), ("set", m)] =>
    (m.operand? "dev").map fun name =>
      .changeLink name (stateOf m) ((number? m "mtu").map UInt32.ofNat)
  | [_, ("link", _), ("save", m)] => some (.saveDump (m.operand? "file"))
  | [_, ("link", _), ("showdump", m)] => some (.showDump (m.operand? "file"))
  | [_, ("monitor", m)] => some (.monitor (topicsOf m) (m.has "all-nsid"))
  | _ => none

def ofReading (r : Reading) : Except Refusal Command :=
  match ofReading? r with
  | some c => .ok c
  | none => .error .missingSubcommand

def read (words : List String) : Except Refusal Command := do ofReading (← spec.read words)

end Command

/-- A command with its settings. -/
structure Invocation where
  style : Style
  /-- Bytes of the socket's receive buffer, if they were given. -/
  receiveBuffer : Option Nat
  command : Command
  deriving DecidableEq, Repr

namespace Invocation

/-- The options that every command knows. -/
def shared : List OptionSpec := [
  { name := "json", short := some 'j' },
  { name := "pretty", short := some 'p' },
  { name := "rcvbuf", value := some (.natural (UInt64.size - 1)) }]

/-- The commands with their settings and their shorter names. -/
def spec : CommandSpec := {
  names := ["ip"]
  options := shared
  subcommands := [
    Command.linkSpec ["link", "l"] shared, Command.monitorSpec ["monitor", "m", "mon"] shared]
  needsSubcommand := true
  hasVersion := true }

/-- A shared option may be given to the program or to a subcommand; the innermost counts. -/
def ofReading (r : Reading) : Except Refusal Invocation := do
  let given (option : String) : Bool := r.any fun (_, m) => m.has option
  return {
    style := ⟨given "json", given "pretty"⟩
    receiveBuffer := (r.filterMap fun (_, m) => Command.number? m "rcvbuf").getLast?
    command := ← Command.ofReading r }

def read (words : List String) : Except Refusal Invocation := do ofReading (← spec.read words)

def config (i : Invocation) : Config :=
  match i.receiveBuffer with
  | some receiveBuffer => { receiveBuffer }
  | none => {}

end Invocation
end Netlink.Tool
