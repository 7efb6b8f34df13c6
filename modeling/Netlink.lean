import Netlink.Endpoint.Script
import Netlink.Generic.Resolve
import Netlink.Main
import Netlink.Proofs.Draft.RoundTrip
import Netlink.Proofs.Draft.Invariant
import Netlink.Proofs.Draft.WellNested
import Netlink.Proofs.Draft.Rollback
import Netlink.Proofs.Message.Cursor
import Netlink.Proofs.Draft.Compat
import Netlink.Proofs.Conversation.DumpStream
import Netlink.Proofs.Conversation.Decision
import Netlink.Proofs.Conversation.DumpPass
import Netlink.Proofs.Conversation.Interruption
import Netlink.Proofs.Conversation.FanOut
import Netlink.Proofs.Recording.Replay
import Netlink.Proofs.Recording.Copy
import Netlink.Proofs.Conversation.Numbering
import Netlink.Proofs.Message.Cut
import Netlink.Proofs.Conversation.Substitution
import Netlink.Proofs.Conversation.Truncation
import Netlink.Proofs.Conversation.Leftovers
import Netlink.Proofs.Conversation.Delivery
import Netlink.Proofs.Endpoint.Outbox
import Netlink.Proofs.Conversation.Batch
import Netlink.Proofs.Recording.Extent
import Netlink.Proofs.Tool.Showing
import Netlink.Proofs.Draft.Aside
import Netlink.Proofs.Conversation.Silence
import Netlink.Proofs.Draft.Stored
import Netlink.Proofs.Draft.TreeLength
import Netlink.Proofs.Attribute.Bounded
import Netlink.Proofs.Message.Echo
import Netlink.Proofs.Message.Offset
import Netlink.Proofs.Conversation.Answer
import Netlink.Proofs.Conversation.Failing
import Netlink.Proofs.Conversation.Refusals
import Netlink.Proofs.Conversation.Shortness
import Netlink.Proofs.Conversation.Agreement
import Netlink.Proofs.Link.Firsts
import Netlink.Proofs.Link.Addressing
import Netlink.Proofs.Conversation.DumpAsking
import Netlink.Proofs.Attribute.Marks
import Netlink.Proofs.Draft.Parts
import Netlink.Proofs.Link.Marking
import Netlink.Proofs.Generic.RoundTrip
import Netlink.Proofs.Socket.Calls
import Netlink.Proofs.Socket.Opening
import Netlink.Proofs.Socket.Serving
import Netlink.Proofs.Selector.Network
import Netlink.Proofs.Draft.Values
import Netlink.Proofs.Tool.Announcing
import Netlink.Proofs.Endpoint.Queue
import Netlink.Proofs.Conversation.Looking
