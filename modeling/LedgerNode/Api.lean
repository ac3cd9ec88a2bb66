import LedgerNode.Http.Host
import LedgerNode.Http.MediaType
import LedgerNode.Http.Status
import LedgerNode.Json.Keyed
import LedgerNode.Node
import LedgerNode.Wire

/-!
The HTTP interface of a node: which routes there are, and what the node answers on each.
Only a submitted transaction changes the node, and only if it is accepted.
-/
namespace LedgerNode.Api

structure Request where
  method : String
  target : String
  mediaType : Option String
  /-- The length of the body as the request declares it before it sends the body. -/
  declaredLength : Option Nat
  body : Bytes
  deriving DecidableEq

/-- An answer; without a JSON body it is empty. -/
structure Response where
  status : Nat
  body : Option Json.Value

inductive Route where
  | health
  | nodeStatus
  | blocks
  | submit
  | pending
  | balances
  deriving DecidableEq, Repr

namespace Route

def method : Route → String
  | blocks => "POST"
  | submit => "PUT"
  | _ => "GET"

def path : Route → String
  | health => "/api/healthz"
  | nodeStatus => "/api/nodes/status"
  | blocks => "/api/nodes/blocks"
  | submit => "/api/transactions"
  | pending => "/api/transactions/pending"
  | balances => "/api/balances"

def all : List Route := [health, nodeStatus, blocks, submit, pending, balances]

def find? (method path : String) : Option Route :=
  all.find? fun r => r.method == method && r.path == path

end Route

/-- The length in bytes that a body may have. -/
def bodyLimit : Nat := 2097152

/-- Why a request on a route is refused. -/
inductive Refusal where
  | wrongMediaType
  /-- The body is longer than `bodyLimit`, and was declared so or not. -/
  | tooLong (declaredLength : Option Nat)
  | malformed (cause : Json.Error)
  | zeroValue
  | invalid (cause : LedgerError)
  | ledgerUnavailable
  | pool (cause : PoolError)
  | registryUnavailable
  deriving DecidableEq

namespace Refusal

def status : Refusal → Nat
  | wrongMediaType | tooLong _ | malformed _ | zeroValue | invalid _ => 400
  | pool (.alreadyPooled _) => 409
  | pool .unavailable => 503
  | ledgerUnavailable | registryUnavailable => 500

def message : Refusal → String
  | wrongMediaType => "Content type error"
  | tooLong (some length) => "JSON payload (" ++ toString length ++
    " bytes) is larger than allowed (limit: " ++ toString bodyLimit ++ " bytes)."
  | tooLong none => "JSON payload has exceeded limit (" ++ toString bodyLimit ++ " bytes)."
  | malformed cause =>
    match cause.message? with
    | some m => "Json deserialize error: " ++ m
    | none => "Json deserialize error"
  | zeroValue => "value must be at least 1"
  | invalid cause => cause.message?.getD ""
  | ledgerUnavailable => "ledger unavailable"
  | pool (.alreadyPooled id) => (PoolError.alreadyPooled id).message
  | pool .unavailable => "transaction cannot be added"
  | registryUnavailable => "nodes could not be found"

def toJson (e : Refusal) : Json.Value :=
  (Json.Value.object [("error", .object [("code", .ofNat e.status),
    ("status", .text ((Http.phrase? e.status).getD "")), ("message", .text e.message)])]).keyed

/-- A fault in what was submitted is the client's; any other is the node's. -/
def ofLedgerError (e : LedgerError) : Refusal := if e.isValidation then invalid e else ledgerUnavailable

end Refusal

/-- What is wrong with the length of a body: a declared length is looked at before the body is read. -/
def lengthFault? (r : Request) : Option Refusal :=
  if bodyLimit < r.declaredLength.getD 0 then some (.tooLong r.declaredLength)
  else if bodyLimit < r.body.length then some (.tooLong none)
  else none

/-- The decoded body of a request. -/
def readBody {α : Type} (dec : Json.Decoder α) (r : Request) : Except Refusal α :=
  if (r.mediaType.map Http.isJsonMediaType).getD false then
    match lengthFault? r with
    | some e => .error e
    | none =>
      match Json.decode dec r.body with
      | .ok a => .ok a
      | .error cause => .error (.malformed cause)
  else .error .wrongMediaType

variable {L : Type}

def health : Json.Value := .object [("status", .text "ok")]

/-- The tip of the node and the nodes it knows. -/
def nodeStatus (n : Node L) : Except Refusal Json.Value :=
  match Registry.list n.registry with
  | .error _ => .error .registryUnavailable
  | .ok known =>
    let s := n.ledger.snapshot
    .ok (Wire.Status.ofReport ⟨s.tip, s.height, known⟩).enveloped

/-- The records behind a digest. -/
def blocks [BlockLog L] (n : Node L) (r : Wire.BlocksRequest) : Except Refusal Json.Value :=
  match n.ledger.recordsAfter r.start with
  | .ok records => .ok (.array (records.map (·.toJson)))
  | .error e => .error (.ofLedgerError e)

/-- Takes a transaction into the pool, if it could be in the next block. -/
def submit (n : Node L) (now : UInt64) (s : Wire.Submission) :
    Except Refusal Wire.IdentifiedTransaction × Node L :=
  if s.value = 0 then (.error .zeroValue, n)
  else
    let tx := s.stamped now
    match n.ledger.snapshot.apply tx with
    | .error e => (.error (.ofLedgerError e), n)
    | .ok _ =>
      match n.pool.add tx with
      | (.ok id, pool) => (.ok ⟨id, tx⟩, { n with pool })
      | (.error e, pool) => (.error (.pool e), { n with pool })

def pending (n : Node L) : Json.Value :=
  (Json.Value.object [("transactions",
    .array (n.pool.oldestFirst.map fun (id, tx) => (Wire.IdentifiedTransaction.mk id tx).toJson))]).keyed

def balances (n : Node L) : Json.Value := (Wire.BalanceSheet.ofSnapshot n.ledger.snapshot).toJson

def accepted (t : Wire.IdentifiedTransaction) : Json.Value :=
  (Json.Value.object [("transaction", t.toJson)]).keyed

/-- A result as it is sent, where `code` is the status of success. -/
def respond (code : Nat) : Except Refusal Json.Value → Response
  | .ok body => ⟨code, some body⟩
  | .error e => ⟨e.status, some e.toJson⟩

def answerOn [BlockLog L] (n : Node L) (now : UInt64) (r : Request) : Route → Response × Node L
  | .health => (respond 200 (.ok health), n)
  | .nodeStatus => (respond 200 (nodeStatus n), n)
  | .blocks => (respond 200 ((readBody Wire.BlocksRequest.decoder r).bind (blocks n)), n)
  | .submit =>
    match readBody Wire.Submission.decoder r with
    | .error e => (respond 201 (.error e), n)
    | .ok s =>
      let (result, n) := submit n now s
      (respond 201 (result.map accepted), n)
  | .pending => (respond 200 (.ok (pending n)), n)
  | .balances => (respond 200 (.ok (balances n)), n)

/-- Answers a request; what is on no route is not found. -/
def answer [BlockLog L] (n : Node L) (now : UInt64) (r : Request) : Response × Node L :=
  match Route.find? r.method (Http.routePath r.target) with
  | some route => answerOn n now r route
  | none => (⟨404, none⟩, n)

theorem snd_answer_of_get [BlockLog L] (n : Node L) (now : UInt64) (r : Request)
    (h : r.method = "GET") : (answer n now r).2 = n := by
  unfold answer
  split
  · rename_i route hr
    have hm : route.method = "GET" := by
      have := List.find?_some hr
      simp only [Bool.and_eq_true, beq_iff_eq] at this
      rw [this.1, h]
    cases route with
    | submit => exact absurd hm (by decide)
    | _ => rfl
  · rfl

end LedgerNode.Api
