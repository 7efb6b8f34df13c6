import Netlink.Conversation.Listen
import Netlink.Tool.LinkText

/-! # Showing announcements

Each message that is announced is shown as text or as one JSON object. As text, an interface is
shown like in a listing, behind a word if it is gone, and every other message by its name and its
size; in front of all stands the namespace it comes from, if that is known. An interface that cannot
be read leaves what was written before it was looked at: of the text the words in front, of the JSON
nothing. -/

namespace Netlink.Tool.EventText

def name (type : UInt16) : String := (MessageType.name? type).getD "UNKNOWN"

def isLink (h : Header) : Bool := h.type = MessageType.newLink || h.type = MessageType.delLink

/-- The namespace that a message comes from, if it is known. -/
def origin? (namespaceId : Int32) : Option Int :=
  if 0 ≤ namespaceId then some namespaceId.toInt else none

/-- What stands in front of the message itself. -/
def lead (namespaceId : Int32) (h : Header) : String :=
  (match origin? namespaceId with
    | some n => s!"[nsid {n}] "
    | none => "")
    ++ if h.type = MessageType.delLink then "Deleted " else ""

def text (namespaceId : Int32) (m : Message) : Handled String :=
  let lead := lead namespaceId m.header
  if isLink m.header then
    .reading (Link.read m.payload) lead fun l => lead ++ LinkText.lines l
  else .taken (lead ++ s!"{name m.header.type} ({m.payload.length} bytes)\n")

/-- What JSON says about a message, apart from the interface it may describe. -/
def object (namespaceId : Int32) (h : Header) (link : List (String × Json)) : Json :=
  .object <|
    ("event", .text (name h.type)) :: link
      ++ ((origin? namespaceId).map fun n => ("nsid", Json.number n)).toList

/-- A message in JSON. The members of every object are in ascending order of name. -/
def json (pretty : Bool) (namespaceId : Int32) (m : Message) : Handled String :=
  let shown (link : List (String × Json)) : String :=
    Json.document pretty (object namespaceId m.header link)
  if isLink m.header then
    .reading (Link.read m.payload) "" fun l => shown [("link", .sorted (LinkText.members l))]
  else .taken (shown [])

def render (style : Style) (namespaceId : Int32) (m : Message) : Handled String :=
  if style.json then json style.pretty namespaceId m else text namespaceId m

/-- A listener that shows every message, one behind another. -/
def listener (style : Style) : Listener String := fun namespaceId m shown =>
  let ⟨(result, more), log⟩ := render style namespaceId m
  ⟨(result, shown ++ more), log⟩

end Netlink.Tool.EventText
