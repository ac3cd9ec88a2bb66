import LedgerNode.Ledger
import LedgerNode.Proofs.Ledger.Log
import LedgerNode.Proofs.Snapshot

/-!
Runs of a ledger: calls in any order with any arguments, where the log may have other room at every
call.  Whatever the calls, a run is made of a few kinds of steps; invariants are shown for these.
-/
namespace LedgerNode

/-- One operation of a ledger with its arguments. -/
inductive Call where
  | add (tx : Transaction)
  | addBlock (b : Block)
  | persist (now : UInt64)
  | recordsAfter (start : Digest)
  | snapshot

inductive Reply where
  | added (result : Except LedgerError Unit)
  | committed (result : Except LedgerFault Digest)
  | records (result : Except LedgerError (List Record))
  | state (s : Snapshot)

/-- A call, or several blocks to be added one by one. -/
inductive Request where
  | call (c : Call)
  | addBlocks (bs : List Block)

inductive Response where
  | reply (r : Reply)
  | batch (result : Except BatchError Nat)

/-- A request and the room that the log has at that time. -/
structure Event where
  request : Request
  limit : SizeLimit

/-- The blocks of a request that were committed. -/
def committedBlocks : Request → Response → List Block
  | .call (.addBlock b), .reply (.committed (.ok _)) => [b]
  | .addBlocks bs, .batch (.ok _) => bs
  | .addBlocks bs, .batch (.error e) => bs.take e.applied
  | _, _ => []

/-- The transactions of a request that were accepted. -/
def acceptedTransactions : Request → Response → List Transaction
  | .call (.add tx), .reply (.added (.ok ())) => [tx]
  | q, r => (committedBlocks q r).flatMap Block.transactions

/-- How many blocks a request has brought into the log. -/
def commitCount : Request → Response → Nat
  | .call (.persist _), .reply (.committed (.ok _)) => 1
  | q, r => (committedBlocks q r).length

/-- What was asked and answered, in order. -/
abbrev History := List (Request × Response)

namespace History

def accepted (h : History) : List Transaction := h.flatMap fun e => acceptedTransactions e.1 e.2

/-- The blocks that were asked for and committed. -/
def blocks (h : History) : List Block := h.flatMap fun e => committedBlocks e.1 e.2

def commits (h : History) : Nat := (h.map fun e => commitCount e.1 e.2).sum

@[simp] theorem accepted_cons (q : Request) (r : Response) (h : History) :
    accepted ((q, r) :: h) = acceptedTransactions q r ++ accepted h := rfl

@[simp] theorem commits_cons (q : Request) (r : Response) (h : History) :
    commits ((q, r) :: h) = commitCount q r + commits h := rfl

end History

namespace Ledger

variable {L : Type}

/-- Adding a transaction: what it does when it is accepted, and that it does nothing otherwise. -/
theorem add_cases (l : Ledger L) (tx : Transaction) :
    (∃ s, l.snapshot.apply tx = .ok s ∧
      l.add tx = (.ok (), { l with snapshot := s, pending := l.pending ++ [tx] })) ∨
    (∃ e, l.snapshot.apply tx = .error e ∧ l.add tx = (.error e, l)) := by
  cases h : l.snapshot.apply tx with
  | ok s => exact Or.inl ⟨s, rfl, by simp [add, h]⟩
  | error e => exact Or.inr ⟨e, rfl, by simp [add, h]⟩

theorem checkBlock_cases (s : Snapshot) (b : Block) :
    (∃ c, checkBlock s b = .ok c ∧ c.block = b ∧ c.base.applyBlock c.block = .ok c.result) ∨
    (∃ f, checkBlock s b = .error f ∧ s.applyBlock b = .error f) := by
  rw [checkBlock]
  cases h : s.applyBlock b with
  | ok result => exact Or.inl ⟨_, rfl, rfl, h⟩
  | error e => exact Or.inr ⟨e, rfl, rfl⟩

theorem block_of_checkBlock {s : Snapshot} {b : Block} {c : CheckedBlock}
    (h : checkBlock s b = .ok c) : c.block = b := by
  rcases checkBlock_cases s b with ⟨d, hd, hblock, -⟩ | ⟨e, he, -⟩
  · rw [hd] at h
    cases h
    exact hblock
  · rw [he] at h
    cases h

theorem pendingBlock?_eq_some_iff {l : Ledger L} {now : UInt64} {b : Block} :
    l.pendingBlock? now = some b ↔
      ∃ height, l.snapshot.nextHeight? = some height ∧
        b = ⟨⟨l.snapshot.tip, height, 0, now⟩, l.pending⟩ := by
  rw [pendingBlock?, Option.map_eq_some_iff]
  simp only [eq_comm]

/-- The block of the pending transactions comes behind the tip. -/
theorem height_pendingBlock? {l : Ledger L} {now : UInt64} {b : Block}
    (h : l.pendingBlock? now = some b) : l.snapshot.nextHeight? = some b.header.height := by
  obtain ⟨height, hheight, rfl⟩ := pendingBlock?_eq_some_iff.mp h
  exact hheight

theorem transactions_pendingBlock? {l : Ledger L} {now : UInt64} {b : Block}
    (h : l.pendingBlock? now = some b) : b.transactions = l.pending := by
  obtain ⟨height, -, rfl⟩ := pendingBlock?_eq_some_iff.mp h
  rfl

section logged

variable [BlockLog L]

def answer (l : Ledger L) : Call → Reply × Ledger L
  | .add tx => let (r, l) := l.add tx; (.added r, l)
  | .addBlock b => let (r, l) := l.addBlock b; (.committed r, l)
  | .persist now => let (r, l) := l.persist now; (.committed r, l)
  | .recordsAfter start => (.records (l.recordsAfter start), l)
  | .snapshot => (.state l.snapshot, l)

def serve (l : Ledger L) : Request → Response × Ledger L
  | .call c => let (r, l) := l.answer c; (.reply r, l)
  | .addBlocks bs => let (r, l) := l.addBlocks bs; (.batch r, l)

theorem promote_cases (l : Ledger L) (b : Block) (s : Snapshot) :
    (∃ log, BlockLog.append l.log (Record.ofBlock b) = (.ok (), log) ∧
      l.promote b s = (.ok b.digest,
        { l with snapshot := s.advance b.digest b.header.height, log })) ∨
    (∃ e log, BlockLog.append l.log (Record.ofBlock b) = (.error e, log) ∧
      l.promote b s = (.error (.error e), { l with log })) := by
  rcases h : BlockLog.append l.log (Record.ofBlock b) with ⟨e | ⟨⟩, log⟩
  · exact Or.inr ⟨e, log, rfl, by simp [promote, h]⟩
  · exact Or.inl ⟨log, rfl, by simp only [promote, h]; rfl⟩

/-- Adding a block: it is committed, or the log cannot take it, or it does not apply. -/
theorem addBlock_cases (l : Ledger L) (b : Block) :
    (∃ s log, l.snapshot.applyBlock b = .ok s ∧
      BlockLog.append l.log (Record.ofBlock b) = (.ok (), log) ∧
      l.addBlock b = (.ok b.digest,
        { l with snapshot := s.advance b.digest b.header.height, log })) ∨
    (∃ e log, BlockLog.append l.log (Record.ofBlock b) = (.error e, log) ∧
      l.addBlock b = (.error (.error e), { l with log })) ∨
    (∃ f, l.snapshot.applyBlock b = .error f ∧ l.addBlock b = (.error f, l)) := by
  rw [addBlock_eq]
  cases h : l.snapshot.applyBlock b with
  | error f => exact Or.inr (Or.inr ⟨f, rfl, rfl⟩)
  | ok s =>
    rcases l.promote_cases b s with ⟨log, ha, hp⟩ | ⟨e, log, ha, hp⟩
    · exact Or.inl ⟨s, log, rfl, ha, hp⟩
    · exact Or.inr (Or.inl ⟨e, log, ha, hp⟩)

/-- A block is committed exactly where it extends the tip, its transactions apply in order, and the log
takes its record. -/
theorem addBlock_eq_ok_iff {l m : Ledger L} {b : Block} {d : Digest} :
    l.addBlock b = (.ok d, m) ↔
      l.snapshot.nextHeight? = some b.header.height ∧ b.header.parent = l.snapshot.tip ∧
        ∃ s log, l.snapshot.applyAll b.transactions = .ok s ∧
          BlockLog.append l.log (Record.ofBlock b) = (.ok (), log) ∧
          d = b.digest ∧ m = ⟨s.advance b.digest b.header.height, l.pending, log⟩ := by
  constructor
  · intro h
    rcases l.addBlock_cases b with ⟨s, log, happly, happend, hadd⟩ | ⟨e, log, -, hadd⟩ |
      ⟨e, -, hadd⟩
    all_goals cases hadd.symm.trans h
    obtain ⟨hheight, hparent, hall⟩ := Snapshot.applyBlock_eq_ok happly
    exact ⟨hheight, hparent, s, log, hall, happend, rfl, rfl⟩
  · rintro ⟨hheight, hparent, s, log, hall, happend, rfl, rfl⟩
    simp only [addBlock_eq, Snapshot.applyBlock_of_extends hheight hparent, hall, Except.mapError,
      promote, happend]
    rfl

/-- The second half of adding a block is as good as both, whatever has happened since the first. -/
theorem commit_eq_addBlock {l : Ledger L} {c : CheckedBlock}
    (h : c.base.applyBlock c.block = .ok c.result) : l.commit c = l.addBlock c.block := by
  rw [addBlock_eq, commit]
  by_cases hbase : l.snapshot = c.base
  · rw [if_pos hbase, hbase, h]
  · rw [if_neg hbase]

/-- Persisting: the pending transactions become a block, or the log cannot take it, or there is
nothing to persist or no height for it. -/
theorem persist_cases (l : Ledger L) (now : UInt64) :
    (∃ b log, l.pending ≠ [] ∧ l.pendingBlock? now = some b ∧
      BlockLog.append l.log (Record.ofBlock b) = (.ok (), log) ∧
      l.persist now =
        (.ok b.digest, ⟨l.snapshot.advance b.digest b.header.height, [], log⟩)) ∨
    (∃ b e log, l.pendingBlock? now = some b ∧
      BlockLog.append l.log (Record.ofBlock b) = (.error e, log) ∧
      l.persist now = (.error (.error e), { l with log })) ∨
    (l.pending = [] ∧ l.persist now = (.error (.error .nothingToPersist), l)) ∨
    (l.pending ≠ [] ∧ l.snapshot.nextHeight? = none ∧
      l.persist now = (.error .heightOverflow, l)) := by
  by_cases hempty : l.pending = []
  · exact Or.inr (Or.inr (Or.inl ⟨hempty, by simp [persist, hempty]⟩))
  cases hblock : l.pendingBlock? now with
  | none =>
    have hnext : l.snapshot.nextHeight? = none := by simpa [pendingBlock?] using hblock
    exact Or.inr (Or.inr (Or.inr ⟨hempty, hnext, by simp [persist, hempty, hblock]⟩))
  | some b =>
    rcases l.promote_cases b l.snapshot with ⟨log, ha, hp⟩ | ⟨e, log, ha, hp⟩
    · exact Or.inl ⟨b, log, hempty, rfl, ha, by simp [persist, hempty, hblock, hp]⟩
    · exact Or.inr (Or.inl ⟨b, e, log, rfl, ha, by simp [persist, hempty, hblock, hp]⟩)

/-- What holds with every block that is added holds with all of them: those before the first that
fails are added, and no other. -/
theorem addBlocksFrom_induction {P : List Block → Ledger L → Prop}
    (hok : ∀ {bs l b d m}, P bs l → addBlock l b = (.ok d, m) → P (bs ++ [b]) m)
    (herror : ∀ {bs l b e m}, P bs l → addBlock l b = (.error e, m) → P bs m)
    (bs : List Block) {before : List Block} {l : Ledger L} (h : P before l) (n : Nat) :
    (∃ m, l.addBlocksFrom n bs = (.ok (n + bs.length), m) ∧ P (before ++ bs) m) ∨
    (∃ k cause m, l.addBlocksFrom n bs = (.error ⟨n + k, cause⟩, m) ∧
      P (before ++ bs.take k) m) := by
  induction bs generalizing before l n with
  | nil => exact Or.inl ⟨l, rfl, by simpa using h⟩
  | cons b bs ih =>
    rcases hb : l.addBlock b with ⟨cause | d, m⟩
    · exact Or.inr ⟨0, cause, m, by simp [addBlocksFrom, hb], by simpa using herror h hb⟩
    · rcases ih (hok h hb) (n + 1) with ⟨m', hm, hP⟩ | ⟨k, cause, m', hm, hP⟩
      · refine Or.inl ⟨m', ?_, by simpa using hP⟩
        simp [addBlocksFrom, hb, hm, Nat.add_assoc, Nat.add_comm 1]
      · refine Or.inr ⟨k + 1, cause, m', ?_, by simpa using hP⟩
        simp [addBlocksFrom, hb, hm, Nat.add_assoc, Nat.add_comm 1]

theorem addBlocks_induction {P : List Block → Ledger L → Prop}
    (hok : ∀ {bs l b d m}, P bs l → addBlock l b = (.ok d, m) → P (bs ++ [b]) m)
    (herror : ∀ {bs l b e m}, P bs l → addBlock l b = (.error e, m) → P bs m)
    (bs before : List Block) {l : Ledger L} (h : P before l) :
    P (before ++ committedBlocks (.addBlocks bs) (.batch (l.addBlocks bs).1))
      (l.addBlocks bs).2 := by
  rcases addBlocksFrom_induction (P := P) hok herror bs h 0 with ⟨m, hm, hP⟩ | ⟨k, cause, m, hm, hP⟩
  · rw [addBlocks, hm]
    exact hP
  · rw [addBlocks, hm, committedBlocks, Nat.zero_add]
    exact hP

theorem serve_add {l m : Ledger L} {tx : Transaction} {r : Except LedgerError Unit}
    (h : l.add tx = (r, m)) : l.serve (.call (.add tx)) = (.reply (.added r), m) := by
  simp only [serve, answer, h]

theorem serve_addBlock {l m : Ledger L} {b : Block} {r : Except LedgerFault Digest}
    (h : l.addBlock b = (r, m)) : l.serve (.call (.addBlock b)) = (.reply (.committed r), m) := by
  simp only [serve, answer, h]

theorem serve_persist {l m : Ledger L} {now : UInt64} {r : Except LedgerFault Digest}
    (h : l.persist now = (r, m)) : l.serve (.call (.persist now)) = (.reply (.committed r), m) := by
  simp only [serve, answer, h]

end logged

variable [BoundedLog L]

/-- The ledger with other room in its log. -/
def bounded (l : Ledger L) (limit : SizeLimit) : Ledger L :=
  { l with log := BoundedLog.bounded l.log limit }

def run (l : Ledger L) : List Event → History × Ledger L
  | [] => ([], l)
  | e :: rest =>
    let (r, l) := (l.bounded e.limit).serve e.request
    let (h, l) := l.run rest
    ((e.request, r) :: h, l)

/-- What can happen to a ledger at once.  Beside it stand the transactions that are accepted, and
the records that are appended to the log. -/
inductive Step : Ledger L → List Transaction → List Record → Ledger L → Prop
  | limited (l : Ledger L) (limit : SizeLimit) : Step l [] [] (l.bounded limit)
  /-- The log could not take a record. -/
  | refused {l : Ledger L} {r : Record} {e : LedgerError} {log : L}
      (happend : BlockLog.append l.log r = (.error e, log)) : Step l [] [] { l with log }
  | added {l : Ledger L} {tx : Transaction} {s : Snapshot} (happly : l.snapshot.apply tx = .ok s) :
      Step l [tx] [] { l with snapshot := s, pending := l.pending ++ [tx] }
  | committed {l : Ledger L} {b : Block} {s : Snapshot} {log : L}
      (happly : l.snapshot.applyBlock b = .ok s)
      (happend : BlockLog.append l.log (Record.ofBlock b) = (.ok (), log)) :
      Step l b.transactions [Record.ofBlock b]
        { l with snapshot := s.advance b.digest b.header.height, log }
  /-- The pending transactions become a block. -/
  | persisted {l : Ledger L} {now : UInt64} {b : Block} {log : L} (hpending : l.pending ≠ [])
      (hblock : l.pendingBlock? now = some b)
      (happend : BlockLog.append l.log (Record.ofBlock b) = (.ok (), log)) :
      Step l [] [Record.ofBlock b] ⟨l.snapshot.advance b.digest b.header.height, [], log⟩

/-- Steps in order. -/
inductive Steps : Ledger L → List Transaction → List Record → Ledger L → Prop
  | nil (l : Ledger L) : Steps l [] [] l
  | cons {l m n : Ledger L} {txs us : List Transaction} {rs ss : List Record}
      (hstep : Step l txs rs m) (hrest : Steps m us ss n) : Steps l (txs ++ us) (rs ++ ss) n

theorem Step.steps {l m : Ledger L} {txs : List Transaction} {rs : List Record}
    (h : Step l txs rs m) : Steps l txs rs m := by
  simpa using Steps.cons h (.nil m)

theorem Steps.append {l m n : Ledger L} {txs us : List Transaction} {rs ss : List Record}
    (h : Steps l txs rs m) (h' : Steps m us ss n) : Steps l (txs ++ us) (rs ++ ss) n := by
  induction h with
  | nil l => exact h'
  | cons hstep _ ih =>
    rw [List.append_assoc, List.append_assoc]
    exact .cons hstep (ih h')

theorem steps_addBlock (l : Ledger L) (b : Block) :
    (∀ d m, l.addBlock b = (.ok d, m) → Step l b.transactions [Record.ofBlock b] m) ∧
    (∀ e m, l.addBlock b = (.error e, m) → Steps l [] [] m) := by
  rcases l.addBlock_cases b with ⟨s, log, happly, happend, h⟩ | ⟨e, log, happend, h⟩ | ⟨e, -, h⟩
  all_goals
    rw [h]
    refine ⟨fun _ _ h => ?_, fun _ _ h => ?_⟩
    all_goals cases h
  · exact .committed happly happend
  · exact (Step.refused happend).steps
  · exact .nil l

theorem steps_addBlocks (l : Ledger L) (bs : List Block) :
    let done := committedBlocks (.addBlocks bs) (.batch (l.addBlocks bs).1)
    Steps l (done.flatMap Block.transactions) (done.map Record.ofBlock) (l.addBlocks bs).2 := by
  have h := addBlocks_induction (L := L)
    (P := fun done m => Steps l (done.flatMap Block.transactions) (done.map Record.ofBlock) m)
    (fun {done m b d n} hm hb => by
      have hstep := (steps_addBlock m b).1 d n hb
      simpa using hm.append hstep.steps)
    (fun {done m b e n} hm hb => by
      simpa using hm.append ((steps_addBlock m b).2 e n hb))
    bs [] (.nil l)
  exact h

theorem steps_of_serve {l m : Ledger L} {q : Request} {r : Response} {rs : List Record}
    (h : l.serve q = (r, m)) (hsteps : Steps l (acceptedTransactions q r) rs m)
    (hlen : rs.length = commitCount q r) :
    ∃ rs, rs.length = commitCount q (l.serve q).1 ∧
      Steps l (acceptedTransactions q (l.serve q).1) rs (l.serve q).2 := by
  rw [h]
  exact ⟨rs, hlen, hsteps⟩

/-- Serving a request takes steps that accept its transactions and append a record for each block it
brings in. -/
theorem steps_serve (l : Ledger L) (q : Request) :
    ∃ rs, rs.length = commitCount q (l.serve q).1 ∧
      Steps l (acceptedTransactions q (l.serve q).1) rs (l.serve q).2 := by
  cases q with
  | addBlocks bs => exact ⟨_, by rw [List.length_map]; rfl, l.steps_addBlocks bs⟩
  | call c =>
    cases c with
    | add tx =>
      rcases l.add_cases tx with ⟨s, happly, h⟩ | ⟨e, -, h⟩
      · exact steps_of_serve (serve_add h) (Step.added happly).steps rfl
      · exact steps_of_serve (serve_add h) (.nil l) rfl
    | addBlock b =>
      obtain ⟨hok, herror⟩ := l.steps_addBlock b
      rcases h : l.addBlock b with ⟨e | d, m⟩
      · exact steps_of_serve (serve_addBlock h) (herror e m h) rfl
      · have hsteps : Steps l ([b].flatMap Block.transactions) [Record.ofBlock b] m := by
          simpa using (hok d m h).steps
        exact steps_of_serve (serve_addBlock h) hsteps rfl
    | persist now =>
      rcases l.persist_cases now with ⟨b, log, hne, hblock, happend, h⟩ | ⟨b, e, log, -, happend, h⟩ |
        ⟨-, h⟩ | ⟨-, -, h⟩
      · exact steps_of_serve (serve_persist h) (Step.persisted hne hblock happend).steps rfl
      · exact steps_of_serve (serve_persist h) (Step.refused happend).steps rfl
      · exact steps_of_serve (serve_persist h) (.nil l) rfl
      · exact steps_of_serve (serve_persist h) (.nil l) rfl
    | recordsAfter start => exact ⟨[], rfl, .nil l⟩
    | snapshot => exact ⟨[], rfl, .nil l⟩

/-- A run takes steps, whatever is asked. -/
theorem steps_run (l : Ledger L) (es : List Event) :
    ∃ rs, rs.length = (l.run es).1.commits ∧ Steps l (l.run es).1.accepted rs (l.run es).2 := by
  induction es generalizing l with
  | nil => exact ⟨[], rfl, .nil l⟩
  | cons e es ih =>
    obtain ⟨rs, hlen, hserve⟩ := (l.bounded e.limit).steps_serve e.request
    obtain ⟨ss, hlen', hrest⟩ := ih ((l.bounded e.limit).serve e.request).2
    refine ⟨rs ++ ss, by simp [run, hlen, hlen'], ?_⟩
    have h := (Step.limited l e.limit).steps.append (hserve.append hrest)
    simpa [run] using h

def sampleMiner : Account := ⟨"0000000000000000000000000000000000000001", by decide⟩

def sampleReward : Transaction := ⟨sampleMiner, sampleMiner, 5, .selfReward, 0⟩

/-- A block that comes first. -/
def sampleBlock : Block := ⟨⟨.zero, 1, 0, 0⟩, []⟩

/-- A reward is sealed; then a block comes too late. -/
def sampleRun : List Event :=
  [⟨.call (.add sampleReward), none⟩, ⟨.call (.persist 0), none⟩,
    ⟨.addBlocks [sampleBlock], some 0⟩]

end Ledger
end LedgerNode
