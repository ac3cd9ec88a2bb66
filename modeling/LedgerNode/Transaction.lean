import LedgerNode.Account
import LedgerNode.Digest

/-!
Transactions: an amount moves from one account to another, or is created for one account as a reward.
A transaction is identified by the digest of its JSON text.
-/
namespace LedgerNode

namespace Digest

def toJson (d : Digest) : Json.Value := .text d.toHex

def parseJson (s : String) : Except Json.ContentError Digest :=
  match ofHex s with
  | .ok d => .ok d
  | .error e => .error (.detail e.message)

def decoder : Json.Decoder Digest := Json.Decoder.parsed parseJson

/-- The digest of a value's JSON text. -/
def ofJson (v : Json.Value) : Digest := ofMessage v.render

end Digest

inductive Reason where
  | other
  /-- The amount is created for its sender, who must also be its receiver. -/
  | selfReward
  | birthday
  | loan
  deriving DecidableEq, Repr, Inhabited

namespace Reason

def tag : Reason → String
  | other => ""
  | selfReward => "self-reward"
  | birthday => "birthday"
  | loan => "loan"

def all : List Reason := [other, selfReward, birthday, loan]

def toJson (r : Reason) : Json.Value := .text r.tag

def decoder : Json.Decoder Reason := Json.Decoder.variant (all.map fun r => (r.tag, r))

end Reason

abbrev TransactionId := Digest

structure Transaction where
  sender : Account
  receiver : Account
  value : UInt64
  reason : Reason
  /-- In seconds since 1970. -/
  time : UInt64
  deriving DecidableEq

namespace Transaction

def isReward (tx : Transaction) : Bool := tx.reason == .selfReward

/-- The fields of the JSON text, in order. -/
def members (tx : Transaction) : List (String × Json.Value) :=
  [("from", tx.sender.toJson), ("to", tx.receiver.toJson), ("value", .ofUInt64 tx.value),
    ("reason", tx.reason.toJson), ("time", .ofUInt64 tx.time)]

def toJson (tx : Transaction) : Json.Value := .object tx.members

def id (tx : Transaction) : TransactionId := .ofJson tx.toJson

def fields : Json.Fields (Account × Account × UInt64 × Reason × UInt64 × Unit) :=
  .field "from" Account.decoder none <| .field "to" Account.decoder none <|
  .field "value" Json.Decoder.uint64 none <| .field "reason" Reason.decoder none <|
  .field "time" Json.Decoder.uint64 none .done

def ofFields : Account × Account × UInt64 × Reason × UInt64 × Unit → Transaction
  | (sender, receiver, value, reason, time, ()) => ⟨sender, receiver, value, reason, time⟩

def decoder : Json.Decoder Transaction := fields.decoder.map ofFields

end Transaction
end LedgerNode
