import LedgerNode.Block

/-!
Proof of work: a block counts once its digest begins with enough zero bytes.  The search tries one
nonce after another and looks at its stop signal before each.
-/
namespace LedgerNode

inductive MiningError where
  | emptyBlock
  | cancelled
  | invalidComplexity (complexity : Nat)
  deriving DecidableEq, Repr

def MiningError.message : MiningError → String
  | .emptyBlock => "cannot mine block with empty transaction list"
  | .cancelled => "mining task has been cancelled"
  | .invalidComplexity n => "complexity " ++ toString n ++ " exceeds the 32-byte hash length"

/-- How many zero bytes a digest must begin with. -/
structure ProofOfWork where
  complexity : Nat
  complexity_le : complexity ≤ 32
  deriving DecidableEq

namespace ProofOfWork

def ofComplexity (n : Nat) : Except MiningError ProofOfWork :=
  if h : n ≤ 32 then .ok ⟨n, h⟩ else .error (.invalidComplexity n)

instance : ToString ProofOfWork :=
  ⟨fun pow => "Complexity (leading zero bytes in hash) = " ++ toString pow.complexity⟩

def meets (pow : ProofOfWork) (d : Digest) : Bool := (d.bytes.take pow.complexity).all (· == 0)

/-- Tries the nonces from the one numbered `i` on; `raised i` says whether the stop signal is up
before that attempt.  Without an outcome after `limit` attempts there is none. -/
def search (pow : ProofOfWork) (raised : Nat → Bool) (nonces : Nat → UInt32) (f : Frame) (i : Nat) :
    (limit : Nat) → Option (Except MiningError UInt32)
  | 0 => none
  | limit + 1 =>
    if raised i then some (.error .cancelled)
    else if pow.meets (f.digest (nonces i)) then some (.ok (nonces i))
    else pow.search raised nonces f (i + 1) limit

/-- A block without transactions is not worth the work. -/
def mine (pow : ProofOfWork) (raised : Nat → Bool) (nonces : Nat → UInt32) (c : Candidate)
    (limit : Nat) : Option (Except MiningError Block) :=
  if c.transactions.isEmpty then some (.error .emptyBlock)
  else (pow.search raised nonces c.frame 0 limit).map fun outcome => outcome.map c.withNonce

theorem meets_of_search {pow : ProofOfWork} {raised : Nat → Bool} {nonces : Nat → UInt32}
    {f : Frame} {i limit : Nat} {nonce : UInt32}
    (h : pow.search raised nonces f i limit = some (.ok nonce)) :
    pow.meets (f.digest nonce) = true := by
  induction limit generalizing i with
  | zero => simp [search] at h
  | succ limit ih =>
    unfold search at h
    split at h
    · simp at h
    · split at h
      · cases h
        assumption
      · exact ih h

theorem meets_of_mine {pow : ProofOfWork} {raised : Nat → Bool} {nonces : Nat → UInt32}
    {c : Candidate} {limit : Nat} {b : Block} (h : pow.mine raised nonces c limit = some (.ok b)) :
    pow.meets b.digest = true ∧ ∃ nonce, b = c.withNonce nonce := by
  unfold mine at h
  split at h
  · simp at h
  · obtain ⟨outcome, hs, ho⟩ := Option.map_eq_some_iff.1 h
    cases outcome with
    | error e => simp [Except.map] at ho
    | ok nonce =>
      cases ho
      exact ⟨c.digest_frame nonce ▸ meets_of_search hs, nonce, rfl⟩

end ProofOfWork
end LedgerNode
