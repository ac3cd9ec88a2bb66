import LedgerNode.Block
import LedgerNode.File
import LedgerNode.SortedMap

/-!
Balances and the tip of the chain, and the rules by which transactions and blocks change them.
A rule that fails changes nothing.
-/
namespace LedgerNode

inductive LedgerError where
  | insufficientBalance (account : Account) (needed available : UInt64)
  | selfRewardMismatch (sender receiver : Account)
  | balanceOverflow (account : Account)
  | nextBlockHeight (latest got : UInt64)
  | nextBlockDigest (latest got : Digest)
  | nothingToPersist
  | corruptLog (line : Nat) (cause : Json.Error)
  | malformedGenesis (cause : Json.Error)
  | file (cause : FileError)
  deriving DecidableEq

namespace LedgerError

/-- The text of an error; a genesis file that is no JSON has none of its own. -/
def message? : LedgerError → Option String
  | insufficientBalance a needed available =>
    some ("insufficient balance: " ++ a.text ++ " needs " ++ toString needed ++ ", has " ++
      toString available)
  | selfRewardMismatch sender receiver =>
    some ("self-reward must credit its sender, got " ++ sender.text ++ " -> " ++ receiver.text)
  | balanceOverflow a => some ("balance of " ++ a.text ++ " would overflow")
  | nextBlockHeight latest got =>
    some ("latest block height " ++ toString latest ++ " doesn't match with next block height " ++
      toString got)
  | nextBlockDigest latest got =>
    some ("latest block hash " ++ latest.toHex ++ " doesn't match with next block parent " ++
      got.toHex)
  | nothingToPersist => some "no pending transactions to persist"
  | corruptLog line _ => some ("block log line " ++ toString line ++ " is malformed")
  | malformedGenesis cause => cause.message?
  | file cause => some cause.message

/-- The block does not extend the tip. -/
def isLinkage : LedgerError → Bool
  | nextBlockHeight .. | nextBlockDigest .. => true
  | _ => false

/-- The fault lies in what was submitted, not in the ledger. -/
def isValidation : LedgerError → Bool
  | insufficientBalance .. | selfRewardMismatch .. | balanceOverflow _ => true
  | e => e.isLinkage

end LedgerError

/-- What keeps a block from being added.  A height with no successor is no error that a caller could be
told of: the addition panics, and the ledger stays as it was. -/
inductive LedgerFault where
  | error (e : LedgerError)
  | heightOverflow
  deriving DecidableEq

/-- What an addition that panics says. -/
def LedgerFault.overflowMessage : String := "attempt to add with overflow"

abbrev Balances := SortedMap Account UInt64

/-- An account without an entry has nothing. -/
def Balances.amountOf (b : Balances) (a : Account) : UInt64 := (b.get? a).getD 0

/-- The sum of two amounts, unless it leaves the range of amounts. -/
def checkedAdd (x y : UInt64) : Option UInt64 :=
  if x.toNat + y.toNat < UInt64.size then some (x + y) else none

theorem toNat_of_checkedAdd {x y z : UInt64} (h : checkedAdd x y = some z) :
    z.toNat = x.toNat + y.toNat := by
  simp only [checkedAdd] at h
  split at h
  · cases h
    rw [UInt64.toNat_add]
    exact Nat.mod_eq_of_lt ‹_›
  · cases h

theorem checkedAdd_eq_some_iff {x y z : UInt64} :
    checkedAdd x y = some z ↔ z.toNat = x.toNat + y.toNat := by
  refine ⟨toNat_of_checkedAdd, fun h => ?_⟩
  have hfits : x.toNat + y.toNat < UInt64.size := h ▸ z.toNat_lt
  rw [checkedAdd, if_pos hfits, Option.some_inj, ← UInt64.toNat_inj, UInt64.toNat_add, h]
  exact Nat.mod_eq_of_lt hfits

namespace Balances

def credit (b : Balances) (a : Account) (value : UInt64) : Except LedgerError Balances :=
  match checkedAdd (b.amountOf a) value with
  | some sum => .ok (b.insert a sum)
  | none => .error (.balanceOverflow a)

/-- A reward goes to its sender.  Any other amount must be there; between two names of one account
nothing moves. -/
def apply (b : Balances) (tx : Transaction) : Except LedgerError Balances :=
  if tx.isReward then
    if tx.sender ≠ tx.receiver then .error (.selfRewardMismatch tx.sender tx.receiver)
    else b.credit tx.receiver tx.value
  else if b.amountOf tx.sender < tx.value then
    .error (.insufficientBalance tx.sender tx.value (b.amountOf tx.sender))
  else if tx.sender = tx.receiver then .ok b
  else
    match checkedAdd (b.amountOf tx.receiver) tx.value with
    | some sum => .ok ((b.insert tx.sender (b.amountOf tx.sender - tx.value)).insert tx.receiver sum)
    | none => .error (.balanceOverflow tx.receiver)

end Balances

structure Snapshot where
  balances : Balances
  tip : Digest
  height : UInt64
  deriving DecidableEq

namespace Snapshot

def ofBalances (b : Balances) : Snapshot := ⟨b, .zero, 0⟩

def apply (s : Snapshot) (tx : Transaction) : Except LedgerError Snapshot :=
  (s.balances.apply tx).map fun b => { s with balances := b }

/-- Transactions in order, up to the first that fails; beside it, how far they went. -/
def applyUpTo (s : Snapshot) : List Transaction → Snapshot × Option LedgerError
  | [] => (s, none)
  | tx :: rest =>
    match s.apply tx with
    | .ok s => s.applyUpTo rest
    | .error e => (s, some e)

/-- Transactions in order, all of them or none. -/
def applyAll (s : Snapshot) (txs : List Transaction) : Except LedgerError Snapshot :=
  txs.foldlM apply s

/-- The height behind the tip, unless the tip has the greatest there is. -/
def nextHeight? (s : Snapshot) : Option UInt64 := checkedAdd s.height 1

theorem nextHeight?_eq_some_iff {s : Snapshot} {height : UInt64} :
    s.nextHeight? = some height ↔ height.toNat = s.height.toNat + 1 := checkedAdd_eq_some_iff

theorem eq_of_nextHeight? {s : Snapshot} {height : UInt64} (h : s.nextHeight? = some height) :
    height = s.height + 1 := by
  simp only [nextHeight?, checkedAdd] at h
  split at h <;> cases h
  rfl

/-- What keeps a block from extending the tip. -/
def linkFault? (s : Snapshot) (b : Block) : Option LedgerFault :=
  match s.nextHeight? with
  | none => some .heightOverflow
  | some height =>
    if b.header.height ≠ height then some (.error (.nextBlockHeight s.height b.header.height))
    else if b.header.parent ≠ s.tip then some (.error (.nextBlockDigest s.tip b.header.parent))
    else none

/-- A block that extends the tip.  The tip itself stays where it is. -/
def applyBlock (s : Snapshot) (b : Block) : Except LedgerFault Snapshot :=
  match s.linkFault? b with
  | some f => .error f
  | none => (s.applyAll b.transactions).mapError .error

/-- A block that extends the tip, up to the first transaction in it that fails. -/
def applyBlockUpTo (s : Snapshot) (b : Block) : Snapshot × Option LedgerFault :=
  match s.linkFault? b with
  | some f => (s, some f)
  | none => ((s.applyUpTo b.transactions).1, (s.applyUpTo b.transactions).2.map .error)

def advance (s : Snapshot) (tip : Digest) (height : UInt64) : Snapshot := ⟨s.balances, tip, height⟩

/-- A block that was committed before: its links are not looked at again. -/
def replay (s : Snapshot) (r : Record) : Except LedgerError Snapshot :=
  (s.applyAll r.block.transactions).map fun s => s.advance r.digest r.block.header.height

@[simp] theorem applyAll_nil (s : Snapshot) : s.applyAll [] = .ok s := rfl

@[simp] theorem applyAll_cons (s : Snapshot) (tx : Transaction) (rest : List Transaction) :
    s.applyAll (tx :: rest) = (s.apply tx).bind fun s => s.applyAll rest := rfl

theorem applyAll_eq_ok_iff (s t : Snapshot) (txs : List Transaction) :
    s.applyAll txs = .ok t ↔ s.applyUpTo txs = (t, none) := by
  induction txs generalizing s with
  | nil => simp [applyUpTo]
  | cons tx rest ih =>
    rw [applyAll_cons, applyUpTo]
    cases s.apply tx with
    | ok s => simpa [Except.bind] using ih s
    | error e => simp [Except.bind]

theorem applyBlock_eq_ok_iff (s t : Snapshot) (b : Block) :
    s.applyBlock b = .ok t ↔ s.applyBlockUpTo b = (t, none) := by
  unfold applyBlock applyBlockUpTo
  cases s.linkFault? b with
  | some f => simp
  | none =>
    have hall := s.applyAll_eq_ok_iff t b.transactions
    rw [Prod.ext_iff] at hall
    cases happly : s.applyAll b.transactions with
    | ok u =>
      change Except.ok u = Except.ok t ↔ _
      simpa [happly] using hall
    | error e =>
      change Except.error (LedgerFault.error e) = Except.ok t ↔ _
      simpa [happly] using hall

end Snapshot
end LedgerNode
