import LedgerNode.Ledger.Session
import LedgerNode.Proofs.Ledger.Load
import LedgerNode.Proofs.Ledger.Run
import LedgerNode.Proofs.Snapshot

/-!
Restarts of a ledger that only ever takes whole blocks.  What its log replays to is the state that
it is in, so loading it anew changes nothing.
-/
namespace LedgerNode

namespace Ledger

/-- The log holds these blocks line by line, the state is what they replay to, and no transaction
waits for a block. -/
structure Replays (b : Balances) (limit : SizeLimit) (bs : List Block) (l : Ledger FileLog) :
    Prop where
  log : l.log = ⟨(bs.map Record.ofBlock).flatMap FileLog.line, limit⟩
  pending : l.pending = []
  replay : (bs.map Record.ofBlock).foldlM Snapshot.replay (.ofBalances b) = .ok l.snapshot

variable {b : Balances} {limit : SizeLimit}

theorem Replays.records_eq {bs : List Block} {l : Ledger FileLog} (h : Replays b limit bs l) :
    BlockLog.records l.log = .ok (bs.map Record.ofBlock) := by
  rw [h.log]
  exact FileLog.records_lines _ limit

/-- A block that is committed is one line more, and one replayed block more. -/
theorem Replays.addBlock_ok {bs : List Block} {l m : Ledger FileLog} {c : Block} {d : Digest}
    (h : Replays b limit bs l) (hadd : l.addBlock c = (.ok d, m)) :
    Replays b limit (bs ++ [c]) m := by
  rcases l.addBlock_cases c with ⟨s, log, happly, happend, ha⟩ | ⟨e, log, -, ha⟩ | ⟨e, -, ha⟩
  · cases ha.symm.trans hadd
    rcases l.log.append_cases (Record.ofBlock c) with hr | hr <;> cases hr.symm.trans happend
    refine ⟨?_, h.pending, ?_⟩
    · simp [h.log]
    · rw [List.map_append, List.foldlM_append, h.replay]
      have hone := Snapshot.replay_of_applyBlock happly
      simp [bind, Except.bind, hone, pure, Except.pure]
  · cases ha.symm.trans hadd
  · cases ha.symm.trans hadd

/-- A block that is not committed leaves no trace, even where a part of its line was written. -/
theorem Replays.addBlock_error {bs : List Block} {l m : Ledger FileLog} {c : Block}
    {f : LedgerFault} (h : Replays b limit bs l) (hadd : l.addBlock c = (.error f, m)) :
    Replays b limit bs m := by
  rcases l.addBlock_cases c with ⟨s, log, -, -, ha⟩ | ⟨e, log, happend, ha⟩ | ⟨e, -, ha⟩
  · cases ha.symm.trans hadd
  · cases ha.symm.trans hadd
    rw [LawfulLog.eq_of_refused happend]
    exact h
  · cases ha.symm.trans hadd
    exact h

theorem Replays.serve_addBlock {bs : List Block} {l : Ledger FileLog} (h : Replays b limit bs l)
    (c : Block) :
    Replays b limit (bs ++ committedBlocks (.call (.addBlock c)) (l.serve (.call (.addBlock c))).1)
      (l.serve (.call (.addBlock c))).2 := by
  rcases hadd : l.addBlock c with ⟨e | d, m⟩
  · rw [Ledger.serve_addBlock hadd]
    simpa [committedBlocks] using h.addBlock_error hadd
  · rw [Ledger.serve_addBlock hadd]
    exact h.addBlock_ok hadd

theorem Replays.serve_addBlocks {bs : List Block} {l : Ledger FileLog} (h : Replays b limit bs l)
    (cs : List Block) :
    Replays b limit (bs ++ committedBlocks (.addBlocks cs) (l.serve (.addBlocks cs)).1)
      (l.serve (.addBlocks cs)).2 :=
  addBlocks_induction (P := Replays b limit) Replays.addBlock_ok Replays.addBlock_error cs _ h

end Ledger

/-- What may happen to a ledger that takes whole blocks only.  When there is no more room than some
number of bytes, a line is torn behind so many of them. -/
inductive SessionEvent where
  | addBlock (b : Block)
  | addBlocks (bs : List Block)
  | limitRoom (room : Option Nat)
  | reload

namespace LedgerSession

/-- Asks the ledger, if there is one. -/
def serve (s : LedgerSession) (q : Request) : History × LedgerSession :=
  match s.ledger with
  | none => ([], s)
  | some l =>
    let (r, l) := l.serve q
    ([(q, r)], s.withLedger l)

def step (s : LedgerSession) : SessionEvent → History × LedgerSession
  | .addBlock b => s.serve (.call (.addBlock b))
  | .addBlocks bs => s.serve (.addBlocks bs)
  | .limitRoom room => ([], s.limitRoom room)
  | .reload => ([], s.load.2)

def run (s : LedgerSession) : List SessionEvent → History × LedgerSession
  | [] => ([], s)
  | e :: rest =>
    let (h, s) := s.step e
    let (h', s) := s.run rest
    (h ++ h', s)

/-- The session of a ledger that keeps its log at its path. -/
def ofLedger (genesis : FileEntry) (l : Ledger FileLog) : LedgerSession :=
  ⟨genesis, .file l.log.content, l.log.limit, some l, true⟩

variable {genesis : FileEntry} {g : Genesis} {limit : SizeLimit} {bs : List Block}
  {l : Ledger FileLog}

/-- Loading anew gives the ledger that there was. -/
theorem load_ofLedger (hg : Genesis.ofFile genesis = .ok g)
    (h : Ledger.Replays g.balances limit bs l) :
    (ofLedger genesis l).load = (.ok (), ofLedger genesis l) := by
  have hreplay := Ledger.replayLog_lines (.ofBalances g.balances) (bs.map Record.ofBlock)
  rw [h.replay] at hreplay
  have hledger : Ledger.ofParts l.snapshot l.log = l := by rw [Ledger.ofParts, ← h.pending]
  have hload : Ledger.load genesis (.file l.log.content) l.log.limit =
      (.ok l, .file l.log.content) := by
    rw [Ledger.load, hg]
    simp only [FileEntry.readOrCreate]
    rw [← hledger, h.log]
    simp [Ledger.ofParts, hreplay, Except.map]
  simp [load, ofLedger, hload]

/-- The session's ledger is what the blocks in its log replay to. -/
def Settled (genesis : FileEntry) (b : Balances) (bs : List Block) (s : LedgerSession) : Prop :=
  ∃ limit l, Ledger.Replays b limit bs l ∧ s = ofLedger genesis l

theorem withLedger_ofLedger {b : Balances} {m : Ledger FileLog} {cs : List Block}
    (hl : Ledger.Replays b limit bs l) (hm : Ledger.Replays b limit cs m) :
    (ofLedger genesis l).withLedger m = ofLedger genesis m := by
  simp [withLedger, ofLedger, hl.log, hm.log]

/-- A request after which the ledger is still what its log replays to. -/
theorem settled_serve {b : Balances} {q : Request} (hl : Ledger.Replays b limit bs l)
    (hm : Ledger.Replays b limit (bs ++ committedBlocks q (l.serve q).1) (l.serve q).2) :
    Settled genesis b (bs ++ ((ofLedger genesis l).serve q).1.blocks)
      ((ofLedger genesis l).serve q).2 := by
  have hserve : (ofLedger genesis l).serve q =
      ([(q, (l.serve q).1)], (ofLedger genesis l).withLedger (l.serve q).2) := rfl
  rw [hserve, withLedger_ofLedger hl hm]
  exact ⟨limit, _, by simpa [History.blocks] using hm, rfl⟩

theorem Settled.step (hg : Genesis.ofFile genesis = .ok g) {s : LedgerSession}
    (h : Settled genesis g.balances bs s) (e : SessionEvent) :
    Settled genesis g.balances (bs ++ (s.step e).1.blocks) (s.step e).2 := by
  obtain ⟨limit, l, hl, rfl⟩ := h
  cases e with
  | addBlock c => exact settled_serve hl (hl.serve_addBlock c)
  | addBlocks cs => exact settled_serve hl (hl.serve_addBlocks cs)
  | limitRoom room =>
    rw [LedgerSession.step, History.blocks, List.flatMap_nil, List.append_nil]
    refine ⟨room.map (l.log.content.length + ·),
      { l with log := { l.log with limit := room.map (l.log.content.length + ·) } },
      ⟨?_, hl.pending, hl.replay⟩, rfl⟩
    rw [hl.log]
  | reload =>
    rw [LedgerSession.step, load_ofLedger hg hl, History.blocks, List.flatMap_nil, List.append_nil]
    exact ⟨limit, l, hl, rfl⟩

theorem Settled.run (hg : Genesis.ofFile genesis = .ok g) {s : LedgerSession}
    (h : Settled genesis g.balances bs s) (es : List SessionEvent) :
    Settled genesis g.balances (bs ++ (s.run es).1.blocks) (s.run es).2 := by
  induction es generalizing bs s with
  | nil => simpa [LedgerSession.run, History.blocks] using h
  | cons e es ih =>
    have hrest := ih (h.step hg e)
    simpa [LedgerSession.run, History.blocks] using hrest

end LedgerSession
end LedgerNode
