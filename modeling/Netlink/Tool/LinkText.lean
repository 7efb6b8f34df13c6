import Netlink.Link.Basic
import Netlink.Tool.Json

/-! # Showing interfaces

An interface takes two lines of text or one JSON object. A list of interfaces in JSON is one array,
whose objects have their members in the order of the fields. -/

namespace Netlink.Tool

/-- How results are written. -/
structure Style where
  json : Bool := false
  /-- JSON is spread over several lines. -/
  pretty : Bool := false
  deriving DecidableEq, Repr

namespace LinkText

/-- The flags that are shown, in the order in which they are shown. -/
def flagNames : List (UInt32 × String) := [
  (DeviceFlag.loopback, "LOOPBACK"), (DeviceFlag.broadcast, "BROADCAST"),
  (DeviceFlag.pointToPoint, "POINTOPOINT"), (DeviceFlag.multicast, "MULTICAST"),
  (DeviceFlag.noArp, "NOARP"), (DeviceFlag.promiscuous, "PROMISC"), (DeviceFlag.up, "UP"),
  (DeviceFlag.lowerUp, "LOWER_UP")]

def flags (mask : UInt32) : String :=
  String.intercalate "," ((flagNames.filter fun (bit, _) => mask &&& bit != 0).map (·.2))

def deviceNames : List (UInt16 × String) :=
  [(1, "ether"), (772, "loopback"), (776, "sit"), (778, "gre"), (65534, "none")]

def device (type : UInt16) : String := (deviceNames.lookup type).getD "unknown"

/-- A word and a value behind a blank, if there is a value. -/
def clause {α : Type} [ToString α] (word : String) : Option α → String
  | none => ""
  | some a => word ++ toString a

/-- The two lines about an interface. -/
def lines (l : Link) : String :=
  let name := l.nameOr "?"
  let mtu := l.mtu.getD 0
  let state := (l.operState.getD .unknown).name
  s!"{l.index}: {name}: <{flags l.flags}> mtu {mtu} state {state}"
    ++ clause " master " l.master ++ clause " qlen " l.queueLength ++ "\n"
    ++ "    link/" ++ device l.deviceType ++ clause " " l.kind ++ "\n"

def number32 (n : UInt32) : Json := .number n.toNat

/-- What JSON says about an interface. -/
def members (l : Link) : List (String × Json) := [
  ("index", number32 l.index),
  ("flags", number32 l.flags),
  ("link_type", .number l.deviceType.toNat),
  ("name", .option .text l.name),
  ("mtu", .option number32 l.mtu),
  ("txqlen", .option number32 l.queueLength),
  ("operstate", .option (fun s => .text s.name) l.operState),
  ("master", .option number32 l.master),
  ("link", .option number32 l.lower),
  ("kind", .option .text l.kind)]

def list (style : Style) (links : List Link) : String :=
  if style.json then Json.document style.pretty (.array (links.map fun l => .object (members l)))
  else String.join (links.map lines)

end LinkText
end Netlink.Tool
