import LedgerNode.Http.Status
import LedgerNode.Http.Target
import LedgerNode.Wire

/-!
What a node asks of another one over HTTP, and what it makes of the answer.
-/
namespace LedgerNode

inductive PeerError where
  | unreachable (peer : PeerAddress)
  /-- The peer answered that it cannot, with this status. -/
  | status (peer : PeerAddress) (code : Nat)
  /-- The exchange went wrong: either the answer is `unreadable`, or there is none. -/
  | request (peer : PeerAddress) (unreadable : Bool)
  deriving DecidableEq

/-- The text of an error; that of a failed exchange is not settled here. -/
def PeerError.message? : PeerError → Option String
  | .unreachable a => some ("peer " ++ toString a ++ " is unreachable")
  | .status a code =>
    some ("peer " ++ toString a ++ " answered with status " ++ Http.statusText code)
  | .request _ _ => none

inductive PeerCall where
  | status
  | blocksAfter (start : Digest)
  deriving DecidableEq

/-- A request as it goes out; one without a body only reads. -/
structure PeerRequest where
  target : String
  body : Option Bytes
  deriving DecidableEq

def PeerRequest.method (r : PeerRequest) : String := if r.body.isSome then "POST" else "GET"

/-- What becomes of a request on its way. -/
inductive PeerReply where
  | refused
  /-- The connection ended before there was an answer. -/
  | dropped
  | answered (status : Nat) (body : Bytes)
  deriving DecidableEq

namespace PeerCall

def endpoint : PeerCall → String
  | status => "/api/nodes/status"
  | blocksAfter _ => "/api/nodes/blocks"

def body : PeerCall → Option Bytes
  | status => none
  | blocksAfter start => some (Wire.BlocksRequest.mk start).toJson.render

/-- The request to a peer, unless its address is none of HTTP. -/
def request? (call : PeerCall) (a : PeerAddress) : Option PeerRequest :=
  (Http.targetOfAddress? (toString a ++ call.endpoint)).map fun target => ⟨target, call.body⟩

variable {α : Type}

/-- What an answer says. -/
def readAnswer (dec : Json.Decoder α) (a : PeerAddress) (status : Nat) (body : Bytes) :
    Except PeerError α :=
  if Http.isFailure status then .error (.status a status)
  else match Json.decode dec (if Http.isBodiless status then [] else body) with
    | .ok x => .ok x
    | .error _ => .error (.request a true)

/-- The request that reaches the peer, if one does, and what the exchange yields. -/
def exchange (dec : Json.Decoder α) (call : PeerCall) (a : PeerAddress) (reply : PeerReply) :
    Option PeerRequest × Except PeerError α :=
  match call.request? a, reply with
  | none, _ => (none, .error (.request a false))
  | some _, .refused => (none, .error (.unreachable a))
  | some r, .dropped => (some r, .error (.request a false))
  | some r, .answered code body =>
    (some r, if Http.isFinal code then readAnswer dec a code body else .error (.request a false))

/-- Asks a peer for its status. -/
def askStatus (a : PeerAddress) (reply : PeerReply) : Option PeerRequest × Except PeerError PeerReport :=
  let (request, answer) := exchange Wire.Status.envelopeDecoder status a reply
  (request, answer.map (·.toReport))

/-- Asks a peer for the records behind a digest. -/
def askBlocks (a : PeerAddress) (start : Digest) (reply : PeerReply) :
    Option PeerRequest × Except PeerError (List Record) :=
  exchange (Json.Decoder.list Record.decoder) (blocksAfter start) a reply

theorem readAnswer_status {dec : Json.Decoder α} {a : PeerAddress} {code : Nat} {body : Bytes}
    (h : Http.isFailure code = true) : readAnswer dec a code body = .error (.status a code) := by
  simp [readAnswer, h]

end PeerCall
end LedgerNode
