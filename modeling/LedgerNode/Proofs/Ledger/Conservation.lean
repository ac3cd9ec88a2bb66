import LedgerNode.Proofs.Balances
import LedgerNode.Proofs.Ledger.Run

/-!
Conservation of value over whole runs.  Balances follow from the accepted transactions alone,
whether these came in a block or were sealed into one later.
-/
namespace LedgerNode.Ledger

variable {L : Type} [BoundedLog L]

theorem Step.moves {l m : Ledger L} {txs : List Transaction} {rs : List Record}
    (h : Step l txs rs m) : l.snapshot.balances.Moves txs m.snapshot.balances := by
  cases h with
  | limited limit => exact .refl _
  | refused happend => exact .refl _
  | added happly =>
    obtain ⟨b, hb, rfl⟩ := Snapshot.apply_eq_ok happly
    exact Balances.moves_apply hb
  | committed happly happend =>
    obtain ⟨-, -, hall⟩ := Snapshot.applyBlock_eq_ok happly
    have hmoves := Snapshot.moves_applyAll hall
    exact hmoves
  | persisted hpending hblock happend => exact .refl _

theorem Steps.moves {l m : Ledger L} {txs : List Transaction} {rs : List Record}
    (h : Steps l txs rs m) : l.snapshot.balances.Moves txs m.snapshot.balances := by
  induction h with
  | nil l => exact .refl _
  | cons hstep _ ih => exact hstep.moves.trans ih

theorem Step.balances_eq {l m : Ledger L} {txs : List Transaction} {rs : List Record}
    (h : Step l txs rs m) (htxs : txs = []) : m.snapshot.balances = l.snapshot.balances := by
  cases h with
  | limited limit => rfl
  | refused happend => rfl
  | added happly => cases htxs
  | committed happly happend =>
    obtain ⟨-, -, hall⟩ := Snapshot.applyBlock_eq_ok happly
    rw [htxs, Snapshot.applyAll_nil] at hall
    cases hall
    rfl
  | persisted hpending hblock happend => rfl

/-- Where nothing is accepted no entry changes, not even to the same amount. -/
theorem Steps.balances_eq {l m : Ledger L} {txs : List Transaction} {rs : List Record}
    (h : Steps l txs rs m) (htxs : txs = []) : m.snapshot.balances = l.snapshot.balances := by
  induction h with
  | nil l => rfl
  | cons hstep _ ih =>
    obtain ⟨hfirst, hrest⟩ := List.append_eq_nil_iff.mp htxs
    rw [ih hrest, hstep.balances_eq hfirst]

/-- After any run an account has what it had at first and was credited, less what it was debited by
the accepted transactions; no amount wraps around.  All accounts together have what they had at
first and the accepted rewards.  A request of which nothing is accepted changes no balance. -/
theorem run_conserves (b : Balances) (log : L) (es : List Event) :
    let h := ((ofParts (.ofBalances b) log).run es).1
    let l := ((ofParts (.ofBalances b) log).run es).2
    (∀ a : Account,
      Transaction.debitsFrom h.accepted a ≤
        (b.amountOf a).toNat + Transaction.creditsTo h.accepted a ∧
      (l.snapshot.balances.amountOf a).toNat =
        (b.amountOf a).toNat + Transaction.creditsTo h.accepted a -
          Transaction.debitsFrom h.accepted a ∧
      (b.amountOf a).toNat + Transaction.creditsTo h.accepted a -
        Transaction.debitsFrom h.accepted a < 2 ^ 64) ∧
    l.snapshot.balances.total = b.total + Transaction.mintedBy h.accepted ∧
    ∀ q : Request, acceptedTransactions q (l.serve q).1 = [] →
      (l.serve q).2.snapshot.balances = l.snapshot.balances := by
  intro h l
  obtain ⟨rs, -, hsteps⟩ := (ofParts (.ofBalances b) log).steps_run es
  have hmoves : b.Moves h.accepted l.snapshot.balances := hsteps.moves
  refine ⟨fun a => ?_, hmoves.total, fun q hq => ?_⟩
  · have haccount := hmoves.account a
    have hlt := (l.snapshot.balances.amountOf a).toNat_lt
    omega
  · obtain ⟨ss, -, hserve⟩ := l.steps_serve q
    exact hserve.balances_eq hq

theorem run_conserves_sampleRun :
    let l := ((inMemory .empty).run sampleRun).2
    l.snapshot.balances.total = 5 ∧
      (l.serve (.addBlocks [sampleBlock])).2.snapshot.balances = l.snapshot.balances := by
  obtain ⟨-, htotal, hrefused⟩ := run_conserves .empty (MemoryLog.mk []) sampleRun
  have hminted : Transaction.mintedBy ((inMemory .empty).run sampleRun).1.accepted = 5 := by decide
  refine ⟨htotal.trans ?_, hrefused (.addBlocks [sampleBlock]) (by decide)⟩
  rw [← inMemory, hminted]
  rfl

end LedgerNode.Ledger
