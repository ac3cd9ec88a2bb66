import LedgerNode.Proofs.Ledger.Chain
import LedgerNode.Proofs.Reordering

/-!
Loading a ledger anew while transactions wait for a block.  These have moved their amounts already,
and blocks may spend such amounts before the transactions are in the log.  So the log is in another
order than the one in which its transactions were applied.  It may not apply in its own order; where
it does, it leads to the state of the ledger, short of what still waits.
-/
namespace LedgerNode

/-- The transactions of records, in the order of the log. -/
def Record.transactions (rs : List Record) : List Transaction := rs.flatMap (·.block.transactions)

@[simp] theorem Record.transactions_append (rs ss : List Record) :
    transactions (rs ++ ss) = transactions rs ++ transactions ss := List.flatMap_append

@[simp] theorem Record.transactions_singleton (b : Block) :
    transactions [ofBlock b] = b.transactions := by simp [transactions, ofBlock]

namespace Snapshot

/-- The tip moves on along records. -/
def along (s : Snapshot) (rs : List Record) : Snapshot :=
  rs.foldl (fun s r => s.advance r.digest r.block.header.height) s

@[simp] theorem along_nil (s : Snapshot) : s.along [] = s := rfl

@[simp] theorem along_singleton (s : Snapshot) (b : Block) :
    s.along [.ofBlock b] = s.advance b.digest b.header.height := rfl

@[simp] theorem along_append (s : Snapshot) (rs ss : List Record) :
    s.along (rs ++ ss) = (s.along rs).along ss := List.foldl_append

@[simp] theorem balances_along (s : Snapshot) (rs : List Record) :
    (s.along rs).balances = s.balances := by
  induction rs generalizing s with
  | nil => rfl
  | cons r rs ih => exact ih (s.advance r.digest r.block.header.height)

theorem applyAll_along (s : Snapshot) (rs : List Record) (txs : List Transaction) :
    (s.along rs).applyAll txs = (s.applyAll txs).map fun t => t.along rs := by
  induction rs generalizing s with
  | nil => cases h : s.applyAll txs <;> simp [h, Except.map]
  | cons r rs ih =>
    refine (ih (s.advance r.digest r.block.header.height)).trans ?_
    rw [applyAll_advance]
    cases s.applyAll txs <;> rfl

/-- Where the tip ends does not depend on the balances. -/
theorem tip_along {s t : Snapshot} (htip : s.tip = t.tip) (hheight : s.height = t.height)
    (rs : List Record) :
    (s.along rs).tip = (t.along rs).tip ∧ (s.along rs).height = (t.along rs).height := by
  induction rs generalizing s t with
  | nil => exact ⟨htip, hheight⟩
  | cons r rs ih => exact ih (s := s.advance r.digest _) (t := t.advance r.digest _) rfl rfl

/-- Replaying records is applying all of their transactions, and moving the tip along. -/
theorem foldlM_replay (s : Snapshot) (rs : List Record) :
    rs.foldlM replay s = (s.applyAll (Record.transactions rs)).map fun t => t.along rs := by
  induction rs generalizing s with
  | nil => rfl
  | cons r rs ih =>
    have hsplit : Record.transactions (r :: rs) = r.block.transactions ++ Record.transactions rs :=
      rfl
    rw [List.foldlM_cons, hsplit, applyAll_append, replay]
    cases s.applyAll r.block.transactions with
    | error e => rfl
    | ok t =>
      refine (ih (t.advance r.digest r.block.header.height)).trans ?_
      rw [applyAll_advance]
      simp only [Except.bind]
      cases t.applyAll (Record.transactions rs) <;> rfl

end Snapshot

namespace Ledger

/-- Loading a log that was written record by record: it succeeds where the transactions of the log
apply in their order to the balances of the genesis file. -/
theorem load_lines {genesis : FileEntry} {g : Genesis} (hg : Genesis.ofFile genesis = .ok g)
    (rs : List Record) (limit : SizeLimit) :
    load genesis (.file (rs.flatMap FileLog.line)) limit =
      (((Snapshot.ofBalances g.balances).applyAll (Record.transactions rs)).map fun s =>
          ofParts (s.along rs) ⟨rs.flatMap FileLog.line, limit⟩,
        .file (rs.flatMap FileLog.line)) := by
  simp only [load, hg, FileEntry.readOrCreate, replayLog_lines, Snapshot.foldlM_replay]
  cases (Snapshot.ofBalances g.balances).applyAll (Record.transactions rs) <;> rfl

section steps

variable {L : Type} [BoundedLog L] {l m : Ledger L} {txs : List Transaction} {rs : List Record}

/-- A step applies the transactions that it accepts, and moves the tip along its records. -/
theorem Step.applied (h : Step l txs rs m) :
    ∃ s, l.snapshot.applyAll txs = .ok s ∧ m.snapshot = s.along rs := by
  cases h with
  | limited limit => exact ⟨_, rfl, rfl⟩
  | refused happend => exact ⟨_, rfl, rfl⟩
  | added happly => exact ⟨_, by simp [happly, Except.bind], rfl⟩
  | committed happly happend => exact ⟨_, (Snapshot.applyBlock_eq_ok happly).2.2, rfl⟩
  | persisted hpending hblock happend => exact ⟨_, rfl, rfl⟩

theorem Steps.applied (h : Steps l txs rs m) :
    ∃ s, l.snapshot.applyAll txs = .ok s ∧ m.snapshot = s.along rs := by
  induction h with
  | nil l => exact ⟨_, rfl, rfl⟩
  | @cons l m n txs us rs ss hstep _ ih =>
    obtain ⟨s, hs, hm⟩ := hstep.applied
    obtain ⟨t, ht, hn⟩ := ih
    rw [hm, Snapshot.applyAll_along] at ht
    rw [Snapshot.applyAll_append, hs]
    cases hu : s.applyAll us with
    | error e => rw [hu] at ht; cases ht
    | ok u =>
      rw [hu] at ht
      cases ht
      exact ⟨u, hu, by rw [hn, Snapshot.along_append]⟩

/-- What was accepted is in the log or waits, if not in this order. -/
theorem Step.perm (h : Step l txs rs m) :
    (l.pending ++ txs).Perm (Record.transactions rs ++ m.pending) := by
  cases h with
  | limited limit => exact .of_eq (List.append_nil _)
  | refused happend => exact .of_eq (List.append_nil _)
  | added happly => exact .refl _
  | committed happly happend => simpa using List.perm_append_comm
  | persisted hpending hblock happend => simp [transactions_pendingBlock? hblock]

theorem Steps.perm (h : Steps l txs rs m) :
    (l.pending ++ txs).Perm (Record.transactions rs ++ m.pending) := by
  induction h with
  | nil l => exact .of_eq (List.append_nil _)
  | @cons l m n txs us rs ss hstep _ ih =>
    rw [Record.transactions_append, List.append_assoc, ← List.append_assoc]
    refine (hstep.perm.append_right us).trans ?_
    rw [List.append_assoc]
    exact ih.append_left _

theorem pending_addBlock (l : Ledger L) (b : Block) : (l.addBlock b).2.pending = l.pending := by
  rcases l.addBlock_cases b with ⟨s, log, -, -, h⟩ | ⟨e, log, -, h⟩ | ⟨e, -, h⟩
  all_goals rw [h]

theorem pending_addBlocks (l : Ledger L) (bs : List Block) :
    (l.addBlocks bs).2.pending = l.pending := by
  refine addBlocks_induction (P := fun _ m => m.pending = l.pending) ?_ ?_ bs [] rfl
  · intro done m b d n hm hb
    rw [← hm, ← m.pending_addBlock b, hb]
  · intro done m b e n hm hb
    rw [← hm, ← m.pending_addBlock b, hb]

/-- The request brings in no block while transactions wait for one. -/
def keepsOrder (l : Ledger L) (q : Request) : Bool :=
  l.pending.isEmpty || (committedBlocks q (l.serve q).1).isEmpty

/-- Blocks that come into the log while nothing waits come in the order in which transactions are
accepted. -/
theorem order_of_blocks {pending : List Transaction} {done : List Block}
    (h : pending = [] ∨ done = []) :
    pending ++ done.flatMap Block.transactions =
      Record.transactions (done.map Record.ofBlock) ++ pending := by
  have hlogged :
      Record.transactions (done.map Record.ofBlock) = done.flatMap Block.transactions := by
    simp [Record.transactions, Record.ofBlock, List.flatMap_map]
  rw [hlogged]
  rcases h with rfl | rfl <;> simp

theorem serve_order (l : Ledger L) (q : Request) (h : l.keepsOrder q = true) :
    ∃ rs, Steps l (acceptedTransactions q (l.serve q).1) rs (l.serve q).2 ∧
      l.pending ++ acceptedTransactions q (l.serve q).1 =
        Record.transactions rs ++ (l.serve q).2.pending := by
  have horder : l.pending = [] ∨ committedBlocks q (l.serve q).1 = [] := by
    simpa [keepsOrder] using h
  cases q with
  | addBlocks bs =>
    refine ⟨_, l.steps_addBlocks bs, ?_⟩
    have hpending : (l.serve (.addBlocks bs)).2.pending = l.pending := l.pending_addBlocks bs
    rw [hpending]
    exact order_of_blocks horder
  | call c =>
    cases c with
    | add tx =>
      rcases l.add_cases tx with ⟨s, happly, h⟩ | ⟨e, -, h⟩
      · rw [serve_add h]
        exact ⟨[], (Step.added happly).steps, rfl⟩
      · rw [serve_add h]
        exact ⟨[], .nil l, List.append_nil _⟩
    | addBlock b =>
      have hpending : (l.serve (.call (.addBlock b))).2.pending = l.pending := l.pending_addBlock b
      rw [hpending]
      obtain ⟨hok, herror⟩ := l.steps_addBlock b
      rcases hb : l.addBlock b with ⟨e | d, m⟩
      · rw [serve_addBlock hb]
        exact ⟨[], herror e m hb, List.append_nil _⟩
      · rw [serve_addBlock hb] at horder ⊢
        refine ⟨_, ?_, order_of_blocks horder⟩
        simpa [acceptedTransactions, committedBlocks] using (hok d m hb).steps
    | persist now =>
      rcases l.persist_cases now with ⟨b, log, hne, hblock, happend, h⟩ | ⟨b, e, log, -, happend, h⟩ |
        ⟨-, h⟩ | ⟨-, -, h⟩
      · rw [serve_persist h]
        refine ⟨_, (Step.persisted hne hblock happend).steps, ?_⟩
        rw [Record.transactions_singleton]
        simp [acceptedTransactions, committedBlocks, transactions_pendingBlock? hblock]
      · rw [serve_persist h]
        exact ⟨[], (Step.refused happend).steps, List.append_nil _⟩
      all_goals
        rw [serve_persist h]
        exact ⟨[], .nil l, List.append_nil _⟩
    | recordsAfter start => exact ⟨[], .nil l, List.append_nil _⟩
    | snapshot => exact ⟨[], .nil l, List.append_nil _⟩

/-- Every request of the run brings in blocks only while nothing waits. -/
def runKeepsOrder (l : Ledger L) : List Event → Bool
  | [] => true
  | e :: rest =>
    (l.bounded e.limit).keepsOrder e.request &&
      ((l.bounded e.limit).serve e.request).2.runKeepsOrder rest

/-- Then what was accepted is in the log and waits in this very order. -/
theorem run_order (l : Ledger L) (es : List Event) (h : l.runKeepsOrder es = true) :
    ∃ rs, Steps l (l.run es).1.accepted rs (l.run es).2 ∧
      l.pending ++ (l.run es).1.accepted =
        Record.transactions rs ++ (l.run es).2.pending := by
  induction es generalizing l with
  | nil => exact ⟨[], .nil l, List.append_nil _⟩
  | cons e es ih =>
    obtain ⟨hfirst, hrest⟩ := (Bool.and_eq_true _ _).mp h
    obtain ⟨rs, hserve, hserved⟩ := (l.bounded e.limit).serve_order e.request hfirst
    obtain ⟨ss, hsteps, horder⟩ := ih ((l.bounded e.limit).serve e.request).2 hrest
    refine ⟨rs ++ ss, ?_, ?_⟩
    · have h := (Step.limited l e.limit).steps.append (hserve.append hsteps)
      simpa [run] using h
    · have hpending : l.pending = (l.bounded e.limit).pending := rfl
      rw [run, History.accepted_cons, Record.transactions_append, hpending, ← List.append_assoc,
        hserved, List.append_assoc, List.append_assoc, horder]

/-- Then the log applies in its own order. -/
theorem applyAll_of_order {l m : Ledger L} {txs : List Transaction} {rs : List Record}
    (h : Steps l txs rs m) (horder : txs = Record.transactions rs ++ m.pending) :
    ∃ s, l.snapshot.applyAll (Record.transactions rs) = .ok s := by
  obtain ⟨s, hs, -⟩ := h.applied
  rw [horder, Snapshot.applyAll_append] at hs
  cases hlogged : l.snapshot.applyAll (Record.transactions rs) with
  | ok t => exact ⟨t, rfl⟩
  | error e => rw [hlogged] at hs; cases hs

end steps

/-- What a log replays to, beside the ledger that has written it. -/
theorem Steps.replayed {L : Type} [BoundedLog L] {l m : Ledger L} {txs : List Transaction}
    {rs : List Record} (h : Steps l txs rs m) (hpending : l.pending = []) {s : Snapshot}
    (hs : l.snapshot.applyAll (Record.transactions rs) = .ok s) :
    (s.along rs).tip = m.snapshot.tip ∧ (s.along rs).height = m.snapshot.height ∧
      (s.along rs).balances.Moves m.pending m.snapshot.balances ∧
      (m.pending = [] → s.along rs = m.snapshot) := by
  obtain ⟨t, ht, hm⟩ := h.applied
  have hperm : txs.Perm (Record.transactions rs ++ m.pending) := by simpa [hpending] using h.perm
  obtain ⟨htip, hheight⟩ := Snapshot.tip_of_applyAll hs
  obtain ⟨htip', hheight'⟩ := Snapshot.tip_of_applyAll ht
  obtain ⟨htips, hheights⟩ :=
    Snapshot.tip_along (htip.trans htip'.symm) (hheight.trans hheight'.symm) rs
  rw [hm]
  refine ⟨htips, hheights, ?_, fun hnone => ?_⟩
  · rw [Snapshot.balances_along, Snapshot.balances_along]
    exact (Snapshot.moves_applyAll ht).rest (Snapshot.moves_applyAll hs) hperm
  · rw [hnone, List.append_nil] at hperm
    rw [Snapshot.applyAll_perm ht hs hperm]

/-- After any run of a ledger that began with an empty file, loading it anew comes to this: it
succeeds exactly where the transactions of the log apply in the order of the log, which is the case
when no block came in while transactions were waiting.  Where it succeeds, it gives the tip, the
height and the balances of the ledger, short of what still waits. -/
theorem run_load (genesis log : FileEntry) (g : Genesis) (hg : Genesis.ofFile genesis = .ok g)
    (hlog : log = .absent ∨ log = .file []) (es : List Event) (limit : SizeLimit) :
    ∃ l₀ : Ledger FileLog, load genesis log none = (.ok l₀, .file []) ∧
      let l := (l₀.run es).2
      let again := load genesis (.file l.log.content) limit
      ∃ rs, BlockLog.records l.log = .ok rs ∧ again.2 = .file l.log.content ∧
        ((∃ m, again.1 = .ok m) ↔
          ∃ s, (Snapshot.ofBalances g.balances).applyAll (Record.transactions rs) = .ok s) ∧
        (l₀.runKeepsOrder es = true → ∃ m, again.1 = .ok m) ∧
        ∀ m, again.1 = .ok m → m.log = ⟨l.log.content, limit⟩ ∧ m.pending = [] ∧
          m.snapshot.tip = l.snapshot.tip ∧ m.snapshot.height = l.snapshot.height ∧
          m.snapshot.balances.Moves l.pending l.snapshot.balances ∧
          (l.pending = [] → m.snapshot = l.snapshot) := by
  refine ⟨_, load_of_empty hg hlog none, ?_⟩
  intro l again
  have hstart : Chained (ofParts (.ofBalances g.balances) (FileLog.mk [] none)) [] :=
    chained_ofParts g.balances rfl
  obtain ⟨rs, -, hsteps⟩ := (ofParts (.ofBalances g.balances) (FileLog.mk [] none)).steps_run es
  have hcontent : l.log.content = rs.flatMap FileLog.line := (hstart.steps hsteps).holds
  have hrecords : BlockLog.records l.log = .ok rs := LawfulLog.records_eq hcontent
  have hagain := load_lines hg rs limit
  rw [← hcontent] at hagain
  have hok : (∃ m, again.1 = .ok m) ↔
      ∃ s, (Snapshot.ofBalances g.balances).applyAll (Record.transactions rs) = .ok s := by
    rw [show again = _ from hagain]
    cases (Snapshot.ofBalances g.balances).applyAll (Record.transactions rs) <;>
      simp [Except.map]
  refine ⟨rs, hrecords, by rw [show again = _ from hagain], hok, fun horder => ?_, fun m hm => ?_⟩
  · obtain ⟨ss, hsteps', hrun⟩ := run_order _ es horder
    -- both are the records of the one log
    have hss : BlockLog.records l.log = .ok ss := LawfulLog.records_eq (hstart.steps hsteps').holds
    obtain rfl : rs = ss := by simpa using hrecords.symm.trans hss
    exact hok.mpr (applyAll_of_order hsteps' hrun)
  · obtain ⟨s, hs⟩ := hok.mp ⟨m, hm⟩
    rw [show again = _ from hagain, hs] at hm
    cases hm
    exact ⟨rfl, rfl, hsteps.replayed rfl hs⟩

def sampleReceiver : Account := ⟨"0000000000000000000000000000000000000002", by decide⟩

/-- The miner spends its reward. -/
def spendingBlock : Block :=
  ⟨⟨.zero, 1, 0, 0⟩, [⟨sampleMiner, sampleReceiver, 5, .other, 0⟩]⟩

/-- The reward is sealed only after it was spent. -/
def earlySpending : List Event :=
  [⟨.call (.add sampleReward), none⟩, ⟨.call (.addBlock spendingBlock), none⟩,
    ⟨.call (.persist 0), none⟩]

/-- What was answered, and the ledger that has come of it. -/
def earlySpent : History × Ledger FileLog :=
  (ofParts (.ofBalances .empty) ⟨[], none⟩).run earlySpending

/-- Its log, in which the reward is spent before it is there. -/
def earlySpentLog : List Record :=
  [.ofBlock spendingBlock, .ofBlock ⟨⟨spendingBlock.digest, 2, 0, 0⟩, [sampleReward]⟩]

theorem content_earlySpent :
    earlySpent.2.log.content = earlySpentLog.flatMap FileLog.line := by
  rw [earlySpentLog, List.flatMap_cons, List.flatMap_singleton]
  rfl

/-- Every request succeeds, nothing waits any more, and still the ledger cannot be loaded. -/
theorem load_fails_earlySpent :
    load (Genesis.fileOf "sample" .empty) .absent none =
        (.ok (ofParts (.ofBalances .empty) ⟨[], none⟩), .file []) ∧
      earlySpent.1.accepted = sampleReward :: spendingBlock.transactions ∧
      earlySpent.1.commits = 2 ∧ earlySpent.2.pending = [] ∧
      load (Genesis.fileOf "sample" .empty) (.file earlySpent.2.log.content) none =
        (.error (.insufficientBalance sampleMiner 5 0), .file earlySpent.2.log.content) := by
  have hg := Genesis.ofFile_fileOf "sample" .empty
  refine ⟨load_of_empty hg (Or.inl rfl) none, by decide, by decide, by decide, ?_⟩
  have hlogged : (Snapshot.ofBalances .empty).applyAll (Record.transactions earlySpentLog) =
      .error (.insufficientBalance sampleMiner 5 0) := by
    decide
  rw [content_earlySpent, load_lines hg, hlogged]
  rfl

/-- Sealed first, the reward can be spent. -/
theorem run_load_sampleRun :
    ∃ l₀ : Ledger FileLog,
      load (Genesis.fileOf "sample" .empty) .absent none = (.ok l₀, .file []) ∧
      ∃ m, (load (Genesis.fileOf "sample" .empty) (.file (l₀.run sampleRun).2.log.content) none).1 =
        .ok m ∧ m.snapshot = (l₀.run sampleRun).2.snapshot := by
  have hg := Genesis.ofFile_fileOf "sample" .empty
  obtain ⟨l₀, hl₀, rs, -, -, -, horder, hagain⟩ :=
    run_load _ .absent _ hg (Or.inl rfl) sampleRun none
  obtain rfl : l₀ = ofParts (.ofBalances .empty) ⟨[], none⟩ := by
    cases hl₀.symm.trans (load_of_empty hg (Or.inl rfl) none)
    rfl
  obtain ⟨m, hm⟩ := horder (by decide)
  exact ⟨_, hl₀, m, hm, (hagain m hm).2.2.2.2.2 (by decide)⟩

end Ledger
end LedgerNode
