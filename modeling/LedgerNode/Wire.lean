import LedgerNode.Peer
import LedgerNode.Snapshot

/-!
The JSON bodies that nodes exchange with each other and with their clients.
-/
namespace LedgerNode

namespace PeerInfo

def toJson (p : PeerInfo) : Json.Value :=
  .object [("name", .text p.name), ("is_bootstrap", .boolean p.isBootstrap),
    ("is_active", .boolean p.isActive)]

def fields : Json.Fields (String × Bool × Bool × Unit) :=
  .field "name" Json.Decoder.text none <| .field "is_bootstrap" Json.Decoder.boolean none <|
  .field "is_active" Json.Decoder.boolean none .done

def ofFields : String × Bool × Bool × Unit → PeerInfo
  | (name, isBootstrap, isActive, ()) => ⟨name, isBootstrap, isActive⟩

def decoder : Json.Decoder PeerInfo := fields.decoder.map ofFields

end PeerInfo

namespace PeerAddress

def toJson (a : PeerAddress) : Json.Value :=
  .object [("ip", .text a.ip), ("port", .ofNat a.port.toNat)]

def fields : Json.Fields (String × UInt16 × Unit) :=
  .field "ip" Json.Decoder.text none <| .field "port" Json.Decoder.uint16 none .done

def ofFields : String × UInt16 × Unit → PeerAddress
  | (ip, port, ()) => ⟨ip, port⟩

def decoder : Json.Decoder PeerAddress := fields.decoder.map ofFields

end PeerAddress

namespace Wire

/-- A node in the list of a status report. -/
structure ListedPeer where
  address : PeerAddress
  info : PeerInfo
  deriving DecidableEq

namespace ListedPeer

def toJson (p : ListedPeer) : Json.Value :=
  .object [("name", .text p.info.name), ("ip", .text p.address.ip),
    ("port", .ofNat p.address.port.toNat), ("is_bootstrap", .boolean p.info.isBootstrap),
    ("is_active", .boolean p.info.isActive)]

def fields : Json.Fields (String × String × UInt16 × Bool × Bool × Unit) :=
  .field "name" Json.Decoder.text none <| .field "ip" Json.Decoder.text none <|
  .field "port" Json.Decoder.uint16 none <| .field "is_bootstrap" Json.Decoder.boolean none <|
  .field "is_active" Json.Decoder.boolean none .done

def ofFields : String × String × UInt16 × Bool × Bool × Unit → ListedPeer
  | (name, ip, port, isBootstrap, isActive, ()) => ⟨⟨ip, port⟩, ⟨name, isBootstrap, isActive⟩⟩

def decoder : Json.Decoder ListedPeer := fields.decoder.map ofFields

end ListedPeer

/-- What a node answers when it is asked for its status. -/
structure Status where
  tip : Digest
  height : UInt64
  nodes : List ListedPeer
  deriving DecidableEq

namespace Status

/-- Nodes are listed in the order of their addresses. -/
def ofReport (r : PeerReport) : Status :=
  ⟨r.tip, r.height, r.known.entries.map fun e => ⟨e.1, e.2⟩⟩

/-- Of several nodes at one address the last counts. -/
def toReport (s : Status) : PeerReport :=
  ⟨s.tip, s.height, .ofList (s.nodes.map fun p => (p.address, p.info))⟩

def toJson (s : Status) : Json.Value :=
  .object [("block_hash", s.tip.toJson), ("block_height", .ofUInt64 s.height),
    ("network_nodes", .array (s.nodes.map (·.toJson)))]

def fields : Json.Fields (Digest × UInt64 × List ListedPeer × Unit) :=
  .field "block_hash" Digest.decoder none <| .field "block_height" Json.Decoder.uint64 none <|
  .field "network_nodes" (Json.Decoder.list ListedPeer.decoder) none .done

def ofFields : Digest × UInt64 × List ListedPeer × Unit → Status
  | (tip, height, nodes, ()) => ⟨tip, height, nodes⟩

def decoder : Json.Decoder Status := fields.decoder.map ofFields

/-- A status in the envelope it is sent in. -/
def enveloped (s : Status) : Json.Value := .object [("status", s.toJson)]

def envelopeFields : Json.Fields (Status × Unit) := .field "status" decoder none .done

def envelopeDecoder : Json.Decoder Status := envelopeFields.decoder.map (·.1)

end Status

/-- A request for the blocks behind a digest. -/
structure BlocksRequest where
  start : Digest
  deriving DecidableEq

namespace BlocksRequest

def toJson (r : BlocksRequest) : Json.Value := .object [("from", r.start.toJson)]

def fields : Json.Fields (Digest × Unit) := .field "from" Digest.decoder none .done

def decoder : Json.Decoder BlocksRequest := fields.decoder.map fun f => ⟨f.1⟩

end BlocksRequest

/-- A transaction as a client submits it, without a time. -/
structure Submission where
  sender : Account
  receiver : Account
  value : UInt64
  reason : Reason
  deriving DecidableEq

namespace Submission

def fields : Json.Fields (Account × Account × UInt64 × Reason × Unit) :=
  .field "from" Account.decoder none <| .field "to" Account.decoder none <|
  .field "value" Json.Decoder.uint64 none <| .field "reason" Reason.decoder (some .other) .done

def ofFields : Account × Account × UInt64 × Reason × Unit → Submission
  | (sender, receiver, value, reason, ()) => ⟨sender, receiver, value, reason⟩

def decoder : Json.Decoder Submission := fields.decoder.map ofFields

def stamped (s : Submission) (now : UInt64) : Transaction :=
  ⟨s.sender, s.receiver, s.value, s.reason, now⟩

end Submission

/-- A transaction with its identity beside its own fields. -/
structure IdentifiedTransaction where
  id : TransactionId
  transaction : Transaction
  deriving DecidableEq

namespace IdentifiedTransaction

def toJson (t : IdentifiedTransaction) : Json.Value :=
  .object (("hash", t.id.toJson) :: t.transaction.members)

def decoder : Json.Decoder IdentifiedTransaction :=
  (Json.besideField "hash" Digest.decoder Transaction.fields).map fun (id, tx) =>
    ⟨id, Transaction.ofFields tx⟩

end IdentifiedTransaction

structure Balance where
  account : Account
  value : UInt64
  deriving DecidableEq

namespace Balance

def toJson (b : Balance) : Json.Value :=
  .object [("account", b.account.toJson), ("value", .ofUInt64 b.value)]

def fields : Json.Fields (Account × UInt64 × Unit) :=
  .field "account" Account.decoder none <| .field "value" Json.Decoder.uint64 none .done

def decoder : Json.Decoder Balance := fields.decoder.map fun (account, value, ()) => ⟨account, value⟩

end Balance

/-- All balances, with the tip that they are those of. -/
structure BalanceSheet where
  tip : Digest
  height : UInt64
  balances : List Balance
  deriving DecidableEq

namespace BalanceSheet

def ofSnapshot (s : Snapshot) : BalanceSheet :=
  ⟨s.tip, s.height, s.balances.entries.map fun e => ⟨e.1, e.2⟩⟩

def toJson (b : BalanceSheet) : Json.Value :=
  .object [("block_hash", b.tip.toJson), ("block_height", .ofUInt64 b.height),
    ("balances", .array (b.balances.map (·.toJson)))]

def fields : Json.Fields (Digest × UInt64 × List Balance × Unit) :=
  .field "block_hash" Digest.decoder none <| .field "block_height" Json.Decoder.uint64 none <|
  .field "balances" (Json.Decoder.list Balance.decoder) none .done

def decoder : Json.Decoder BalanceSheet :=
  fields.decoder.map fun (tip, height, balances, ()) => ⟨tip, height, balances⟩

end BalanceSheet

end Wire
end LedgerNode
