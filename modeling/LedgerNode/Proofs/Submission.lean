import LedgerNode.Api
import LedgerNode.Proofs.Pool.Run

/-!
Submitted transactions.  One is looked at from four sides in turn: its value, whether it applies to the
ledger as it stands, whether it is pooled already, and whether there is room to announce it.  The first
that tells against it decides the answer and then nothing changes; otherwise it enters the pool and the
queue, and the ledger stays what it was.
-/
namespace LedgerNode

/-- Whatever keeps a transaction from applying is the fault of the transaction. -/
theorem Balances.isValidation_of_apply {b : Balances} {tx : Transaction} {e : LedgerError}
    (h : b.apply tx = .error e) : e.isValidation = true := by
  rw [apply] at h
  split at h
  · split at h
    · cases h
      rfl
    · rw [credit] at h
      split at h
      · cases h
      · cases h
        rfl
  · split at h
    · cases h
      rfl
    · split at h
      · cases h
      · split at h
        · cases h
        · cases h
          rfl

theorem Snapshot.isValidation_of_apply {s : Snapshot} {tx : Transaction} {e : LedgerError}
    (h : s.apply tx = .error e) : e.isValidation = true := by
  rw [apply] at h
  cases hb : s.balances.apply tx with
  | ok b => rw [hb] at h; cases h
  | error cause =>
    rw [hb] at h
    cases h
    exact Balances.isValidation_of_apply hb

namespace Api

variable {L : Type}

/-- The transaction could be the next one on the ledger. -/
def Applies (n : Node L) (tx : Transaction) : Prop := ∃ s, n.ledger.snapshot.apply tx = .ok s

/-- There is a receiver to announce a transaction to, and room for it in the queue. -/
def HasRoom (n : Node L) : Prop :=
  n.pool.announced.isOpen = true ∧ n.pool.announced.waiting.length < n.pool.announced.slots

/-- The transaction is pooled under its identity, and waits behind all others in the queue. -/
def taking (n : Node L) (tx : Transaction) : Node L where
  ledger := n.ledger
  pool := ⟨n.pool.pending.insert tx.id tx,
    { n.pool.announced with waiting := n.pool.announced.waiting ++ [tx] }⟩
  registry := n.registry

/-- What becomes of a transaction, and of the node. -/
inductive Verdict (n : Node L) (tx : Transaction) :
    Except Refusal Wire.IdentifiedTransaction × Node L → Prop
  | zeroValue (hvalue : tx.value = 0) : Verdict n tx (.error .zeroValue, n)
  | invalid (hvalue : tx.value ≠ 0) {e : LedgerError} (he : n.ledger.snapshot.apply tx = .error e) :
    Verdict n tx (.error (.invalid e), n)
  | pooled (hvalue : tx.value ≠ 0) (happlies : Applies n tx) (hpooled : tx.id ∈ n.pool.pending) :
    Verdict n tx (.error (.pool (.alreadyPooled tx.id)), n)
  | noRoom (hvalue : tx.value ≠ 0) (happlies : Applies n tx) (hnew : tx.id ∉ n.pool.pending)
    (hroom : ¬ HasRoom n) : Verdict n tx (.error (.pool .unavailable), n)
  | taken (hvalue : tx.value ≠ 0) (happlies : Applies n tx) (hnew : tx.id ∉ n.pool.pending)
    (hroom : HasRoom n) : Verdict n tx (.ok ⟨tx.id, tx⟩, taking n tx)

theorem hasRoom_iff (n : Node L) : n.pool.announced.hasRoom = true ↔ HasRoom n := by
  rw [Queue.hasRoom, Bool.and_eq_true, decide_eq_true_eq, HasRoom]

theorem verdict_submit (n : Node L) (now : UInt64) (s : Wire.Submission) :
    Verdict n (s.stamped now) (submit n now s) := by
  have hvalue : (s.stamped now).value = s.value := rfl
  rw [submit, ← hvalue]
  generalize s.stamped now = tx
  by_cases hzero : tx.value = 0
  · rw [if_pos hzero]
    exact .zeroValue hzero
  rw [if_neg hzero]
  cases happly : n.ledger.snapshot.apply tx with
  | error e =>
    have he : Refusal.ofLedgerError e = .invalid e := if_pos (Snapshot.isValidation_of_apply happly)
    simp only [happly, he]
    exact .invalid hzero happly
  | ok t =>
    -- It was tried on a copy of the ledger, which is not kept.
    have happlies : Applies n tx := ⟨t, happly⟩
    rcases n.pool.add_cases tx with ⟨hpooled, hadd⟩ | ⟨hnew, hroom, hadd⟩ | ⟨hnew, hroom, hadd⟩ <;>
      simp only [happly, hadd]
    · exact .pooled hzero happlies hpooled
    · refine .noRoom hzero happlies (ne_true_of_eq_false hnew) fun h => ?_
      rw [← hasRoom_iff, hroom] at h
      cases h
    · exact .taken hzero happlies (ne_true_of_eq_false hnew) ((hasRoom_iff n).mp hroom)

/-- An accepted transaction is sent back with its identity, its members in the order of their keys. -/
theorem accepted_eq (id : TransactionId) (tx : Transaction) :
    accepted ⟨id, tx⟩ = .object [("transaction", .object
      [("from", tx.sender.toJson), ("hash", .text id.toHex), ("reason", tx.reason.toJson),
        ("time", .ofUInt64 tx.time), ("to", tx.receiver.toJson), ("value", .ofUInt64 tx.value)])] := by
  -- each key is put in its place among those before it
  have hfrom : compare "from" "hash" = .lt := by decide
  have hto : compare "to" "from" = .gt ∧ compare "to" "hash" = .gt := by decide
  have hvalue : compare "value" "from" = .gt ∧ compare "value" "hash" = .gt ∧
      compare "value" "to" = .gt := by decide
  have hreason : compare "reason" "from" = .gt ∧ compare "reason" "hash" = .gt ∧
      compare "reason" "to" = .lt := by decide
  have htime : compare "time" "from" = .gt ∧ compare "time" "hash" = .gt ∧
      compare "time" "reason" = .gt ∧ compare "time" "to" = .lt := by decide
  simp [accepted, Wire.IdentifiedTransaction.toJson, Transaction.members, Json.Value.keyed,
    Json.keyedMembers, SortedMap.ofList, SortedMap.insert, SortedMap.empty, SortedMap.insertEntry,
    hfrom, hto, hvalue, hreason, htime, Digest.toJson, Account.toJson, Reason.toJson,
    Json.Value.ofUInt64]

/-- A submission that is read is answered as it is judged. -/
theorem answer_submit [BlockLog L] (n : Node L) (now : UInt64) {r : Request} {s : Wire.Submission}
    (hroute : Route.find? r.method (Http.routePath r.target) = some .submit)
    (hbody : readBody Wire.Submission.decoder r = .ok s) :
    answer n now r = (respond 201 ((submit n now s).1.map accepted), (submit n now s).2) := by
  rw [answer, hroute]
  simp only [answerOn, hbody]

/-- A submission that is read is taken exactly if its value is at least one, it applies to the ledger as
it stands, it is not pooled already, and the queue is open and has room.  Then the pool has it in
addition, under the digest of its JSON text, which is in the answer, it waits behind all others in the
queue, and the ledger is unchanged.  Otherwise the first of these that fails decides the status, and
nothing changes. -/
theorem submission_all_or_nothing [BlockLog L] (n : Node L) (now : UInt64) {r : Request}
    {s : Wire.Submission} (hroute : Route.find? r.method (Http.routePath r.target) = some .submit)
    (hbody : readBody Wire.Submission.decoder r = .ok s) :
    let tx := s.stamped now
    let response := (answer n now r).1
    let m := (answer n now r).2
    (response.status = 201 ↔
      1 ≤ tx.value ∧ Applies n tx ∧ tx.id ∉ n.pool.pending ∧ HasRoom n) ∧
    (response.status = 201 →
      response.body = some (.object [("transaction", .object
        [("from", tx.sender.toJson), ("hash", .text tx.id.toHex), ("reason", tx.reason.toJson),
          ("time", .ofUInt64 tx.time), ("to", tx.receiver.toJson), ("value", .ofUInt64 tx.value)])]) ∧
      tx.id.bytes = Sha256.digest tx.toJson.render ∧
      (∀ id, m.pool.pending.get? id = if id = tx.id then some tx else n.pool.pending.get? id) ∧
      m.pool.announced = { n.pool.announced with waiting := n.pool.announced.waiting ++ [tx] } ∧
      m.ledger = n.ledger ∧ m.registry = n.registry) ∧
    (response.status = 400 ↔ tx.value = 0 ∨ ¬ Applies n tx) ∧
    (response.status = 409 ↔ 1 ≤ tx.value ∧ Applies n tx ∧ tx.id ∈ n.pool.pending) ∧
    (response.status = 503 ↔
      1 ≤ tx.value ∧ Applies n tx ∧ tx.id ∉ n.pool.pending ∧ ¬ HasRoom n) ∧
    (response.status ≠ 201 → m = n) := by
  intro tx response m
  have hverdict : Verdict n tx (submit n now s) := verdict_submit n now s
  have hone : 1 ≤ tx.value ↔ tx.value ≠ 0 := by
    rw [UInt64.le_iff_toNat_le, ne_eq, ← UInt64.toNat_inj]
    exact Nat.one_le_iff_ne_zero
  have hresponse : response = respond 201 ((submit n now s).1.map accepted) :=
    congrArg Prod.fst (answer_submit n now hroute hbody)
  have hnode : m = (submit n now s).2 := congrArg Prod.snd (answer_submit n now hroute hbody)
  rw [hresponse, hnode, hone]
  generalize submit n now s = judged at hverdict
  cases hverdict with
  | zeroValue hvalue => simp [respond, Except.map, Refusal.status, hvalue]
  | invalid hvalue he =>
    have hnot : ¬ Applies n tx := fun ⟨t, ht⟩ => nomatch he.symm.trans ht
    simp [respond, Except.map, Refusal.status, hvalue, hnot]
  | pooled hvalue happlies hpooled =>
    simp [respond, Except.map, Refusal.status, hvalue, happlies, hpooled]
  | noRoom hvalue happlies hnew hroom =>
    simp [respond, Except.map, Refusal.status, hvalue, happlies, hnew, hroom]
  | taken hvalue happlies hnew hroom =>
    have hbody : (respond 201 (Except.map accepted (.ok ⟨tx.id, tx⟩))).body =
        some (.object [("transaction", .object
          [("from", tx.sender.toJson), ("hash", .text tx.id.toHex), ("reason", tx.reason.toJson),
            ("time", .ofUInt64 tx.time), ("to", tx.receiver.toJson),
            ("value", .ofUInt64 tx.value)])]) :=
      congrArg some (accepted_eq tx.id tx)
    have hdigest : tx.id.bytes = Sha256.digest tx.toJson.render := rfl
    have hpool (id : TransactionId) : (taking n tx).pool.pending.get? id =
        if id = tx.id then some tx else n.pool.pending.get? id := n.pool.pending.get?_insert _ _ _
    have hqueue : (taking n tx).pool.announced =
        { n.pool.announced with waiting := n.pool.announced.waiting ++ [tx] } := rfl
    have hstatus : (respond 201 (Except.map accepted (.ok ⟨tx.id, tx⟩))).status = 201 := rfl
    have hledger : (taking n tx).ledger = n.ledger := rfl
    have hregistry : (taking n tx).registry = n.registry := rfl
    simp [hstatus, hbody, hdigest, hpool, hqueue, hledger, hregistry, hvalue, happlies, hnew, hroom]

/-- A request for the sample reward of the pool. -/
def sampleRequest : Request where
  method := "PUT"
  target := "/api/transactions"
  mediaType := some "application/json"
  declaredLength := none
  body := Text.utf8 "\x7b\"from\":\"0000000000000000000000000000000000000003\",\"to\":\"0000000000000000000000000000000000000003\",\"value\":5,\"reason\":\"self-reward\"\x7d"

def sampleSubmission : Wire.Submission := ⟨Pool.sampleAccount, Pool.sampleAccount, 5, .selfReward⟩

def freshNode : Node MemoryLog := ⟨.inMemory .empty, .ofCapacity 1, .file []⟩

/-- The same node when nobody listens to its queue any more. -/
def deafNode : Node MemoryLog := { freshNode with pool := freshNode.pool.close }

/-- The reward enters the pool of a node that listens to its queue; one that does not changes nothing. -/
theorem submission_all_or_nothing_sampleRequest :
    Route.find? sampleRequest.method (Http.routePath sampleRequest.target) = some .submit ∧
      readBody Wire.Submission.decoder sampleRequest = .ok sampleSubmission ∧
      (answer freshNode 0 sampleRequest).1.status = 201 ∧
      (answer freshNode 0 sampleRequest).2.pool.pending.get? Pool.sampleReward.id =
        some Pool.sampleReward ∧
      (answer deafNode 0 sampleRequest).1.status = 503 ∧
      (answer deafNode 0 sampleRequest).2 = deafNode := by
  have hroute : Route.find? sampleRequest.method (Http.routePath sampleRequest.target) =
      some .submit := by
    decide +kernel
  have hbody : readBody Wire.Submission.decoder sampleRequest = .ok sampleSubmission := by
    decide +kernel
  have happlies (n : Node MemoryLog) (h : n.ledger = freshNode.ledger) :
      Applies n (sampleSubmission.stamped 0) := ⟨_, by rw [h]; rfl⟩
  obtain ⟨htaken, hin, -⟩ := submission_all_or_nothing freshNode 0 hroute hbody
  have htaken := htaken.mpr ⟨by decide, happlies _ rfl, nofun, rfl, by decide⟩
  obtain ⟨-, -, hpool, -⟩ := hin htaken
  obtain ⟨-, -, -, -, hunavailable, hunchanged⟩ := submission_all_or_nothing deafNode 0 hroute hbody
  have hdeaf := hunavailable.mpr ⟨by decide, happlies _ rfl, nofun, nofun⟩
  refine ⟨hroute, hbody, htaken, (hpool _).trans (if_pos rfl), hdeaf, hunchanged ?_⟩
  rw [hdeaf]
  decide

end Api
end LedgerNode
