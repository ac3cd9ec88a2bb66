import LedgerNode.Proofs.Ledger.Load
import LedgerNode.Proofs.Ledger.Twin

/-!
Where a ledger keeps its blocks does not show.  A ledger in memory has a twin that writes its blocks to
a file: serving a request and then going over to the twin is the same as serving it on the twin.  So
both give the same responses and show the same state, over any run.
-/
namespace LedgerNode

namespace Record

/-- The records behind the first one with this digest, of those there are.  Zero stands before them
all. -/
inductive Behind (start : Digest) : List Record → List Record → Prop
  | all {rs : List Record} (hstart : start = .zero) : Behind start rs rs
  | found {before rest : List Record} {r : Record} (hstart : start ≠ .zero)
      (hbefore : ∀ s ∈ before, s.digest ≠ start) (hr : r.digest = start) :
      Behind start (before ++ r :: rest) rest
  | unknown {rs : List Record} (hstart : start ≠ .zero) (hrs : ∀ r ∈ rs, r.digest ≠ start) :
      Behind start rs []

theorem behind_after (start : Digest) (rs : List Record) : Behind start rs (after start rs) := by
  by_cases hstart : start = .zero
  · rw [hstart, after_zero]
    exact .all rfl
  · induction rs with
    | nil =>
      have hnil : after start [] = [] := by simp [after]
      rw [hnil]
      exact .unknown hstart (List.forall_mem_nil _)
    | cons r rs ih =>
      rw [after_cons hstart]
      by_cases hr : r.digest = start
      · rw [if_pos hr]
        have hfound : Behind start ([] ++ r :: rs) rs := .found hstart (List.forall_mem_nil _) hr
        exact hfound
      · rw [if_neg hr]
        generalize after start rs = rest at ih
        cases ih with
        | all h => exact absurd h hstart
        | @found before rest s _ hbefore hs =>
          have hfound : Behind start ((r :: before) ++ s :: rest) rest :=
            .found hstart (List.forall_mem_cons.mpr ⟨hr, hbefore⟩) hs
          exact hfound
        | unknown _ hrs => exact .unknown hstart (List.forall_mem_cons.mpr ⟨hr, hrs⟩)

end Record

namespace FileLog

/-- One record of a search for what stands behind a digest: until the digest is met there is nothing
to keep, from then on everything. -/
def collect (start : Digest) : Bool × List Record → Record → Except LedgerError (Bool × List Record)
  | (true, kept), r => .ok (true, kept ++ [r])
  | (false, kept), r => .ok (r.digest == start, kept)

theorem foldlM_collect_met (start : Digest) (es : List (Except LedgerError Record))
    (kept : List Record) :
    es.foldlM (fun s entry => entry.bind (collect start s)) (true, kept) =
      (es.mapM id).map fun rs => (true, kept ++ rs) := by
  induction es generalizing kept with
  | nil => simp [pure, Except.pure, Except.map]
  | cons entry es ih =>
    rw [List.foldlM_cons, List.mapM_cons]
    cases entry with
    | error e => rfl
    | ok r =>
      refine (ih (kept ++ [r])).trans ?_
      cases es.mapM id <;> simp [bind, Except.bind, Except.map, pure, Except.pure]

theorem foldlM_collect_unmet {start : Digest} (hstart : start ≠ .zero)
    (es : List (Except LedgerError Record)) :
    (es.foldlM (fun s (entry : Except LedgerError Record) => entry.bind (collect start s))
        (false, [])).map (·.2) = (es.mapM id).map (Record.after start) := by
  induction es with
  | nil => simp [pure, Except.pure, Except.map, Record.after]
  | cons entry es ih =>
    rw [List.foldlM_cons, List.mapM_cons]
    cases entry with
    | error e => rfl
    | ok r =>
      have hread : (Except.ok r : Except LedgerError Record).bind (collect start (false, [])) =
          .ok (r.digest == start, []) := rfl
      by_cases hr : r.digest = start
      · have hmet : (r.digest == start) = true := beq_iff_eq.mpr hr
        rw [hread, hmet]
        refine (congrArg (Except.map (·.2)) (foldlM_collect_met start es [])).trans ?_
        cases es.mapM id <;> simp [bind, Except.bind, Except.map, pure, Except.pure,
          Record.after_cons hstart, hr]
      · have hunmet : (r.digest == start) = false := beq_eq_false_iff_ne.mpr hr
        rw [hread, hunmet]
        refine ih.trans ?_
        cases es.mapM id <;> simp [bind, Except.bind, Except.map, pure, Except.pure,
          Record.after_cons hstart, hr]

/-- What stands behind a digest is found in one pass over the lines, whatever the file holds. -/
theorem foldEntries_collect (log : FileLog) (start : Digest) :
    (foldEntries (collect start) (start.isZero, []) log.content).map (·.2) =
      (records log).map (Record.after start) := by
  by_cases hstart : start = .zero
  · have hafter : Record.after start = id := funext fun rs => by rw [hstart, Record.after_zero, id]
    have hzero : start.isZero = true := by simpa [Digest.isZero] using hstart
    rw [foldEntries, hzero, foldlM_collect_met, records, hafter]
    cases (entries log.content).mapM id <;> simp [Except.map]
  · have hzero : start.isZero = false := by simpa [Digest.isZero] using hstart
    rw [foldEntries, hzero, foldlM_collect_unmet hstart, records]

end FileLog

namespace Ledger

/-- What a ledger shows: its state, and what waits for a block. -/
structure View where
  state : Snapshot
  pending : List Transaction
  deriving DecidableEq

section watch

variable {L : Type}

def view (l : Ledger L) : View := ⟨l.snapshot, l.pending⟩

/-- Serves requests in order; beside each are its response and what the ledger shows then. -/
def watch [BlockLog L] (l : Ledger L) : List Request → List (Response × View) × Ledger L
  | [] => ([], l)
  | q :: rest =>
    let (r, m) := l.serve q
    let (seen, n) := m.watch rest
    ((r, m.view) :: seen, n)

theorem watch_cons [BlockLog L] (l : Ledger L) (q : Request) (rest : List Request) :
    l.watch (q :: rest) =
      (((l.serve q).1, (l.serve q).2.view) :: ((l.serve q).2.watch rest).1,
        ((l.serve q).2.watch rest).2) := rfl

end watch

/-- A file of the same records, one to a line, with room for more. -/
theorem twins_lines :
    BlockLog.Twins fun log : MemoryLog => FileLog.mk (log.records.flatMap FileLog.line) none where
  append_eq log r := by
    refine (FileLog.append_unlimited _ r).trans ?_
    have hlines : (log.records ++ [r]).flatMap FileLog.line =
        log.records.flatMap FileLog.line ++ FileLog.line r := by
      simp
    rw [← hlines]
    rfl
  records_eq log := FileLog.records_lines log.records none

/-- The twin of a ledger that keeps its blocks in a file, one to a line. -/
def written (m : Ledger MemoryLog) : Ledger FileLog :=
  ⟨m.snapshot, m.pending, ⟨m.log.records.flatMap FileLog.line, none⟩⟩

@[simp] theorem view_written (m : Ledger MemoryLog) : m.written.view = m.view := rfl

theorem recordsAfter_written (m : Ledger MemoryLog) (start : Digest) :
    m.written.recordsAfter start = m.recordsAfter start :=
  m.recordsAfter_mapLog twins_lines start

theorem serve_written (m : Ledger MemoryLog) (q : Request) :
    m.written.serve q = ((m.serve q).1, (m.serve q).2.written) :=
  m.serve_mapLog twins_lines q

theorem watch_written (m : Ledger MemoryLog) (qs : List Request) :
    m.written.watch qs = ((m.watch qs).1, (m.watch qs).2.written) := by
  induction qs generalizing m with
  | nil => rfl
  | cons q qs ih => rw [watch_cons, watch_cons, serve_written, ih, view_written]

/-- A ledger that begins with an empty file and one that begins in memory with the same balances show
the same, and whatever is asked of both, they give the same responses and show the same after each.
Asked for what stands behind a digest they give the records behind the first one that has it: the
ledger with the file finds them in one pass over its lines. -/
theorem load_watch (genesis log : FileEntry) (g : Genesis) (hg : Genesis.ofFile genesis = .ok g)
    (hlog : log = .absent ∨ log = .file []) :
    ∃ l : Ledger FileLog, load genesis log none = (.ok l, .file []) ∧
      l.view = (inMemory g.balances).view ∧
      ∀ qs : List Request,
        (l.watch qs).1 = ((inMemory g.balances).watch qs).1 ∧
        ∃ rs, BlockLog.records (l.watch qs).2.log = .ok rs ∧
          ((inMemory g.balances).watch qs).2.log = ⟨rs⟩ ∧
          ∀ start, ∃ answer, Record.Behind start rs answer ∧
            (l.watch qs).2.recordsAfter start = .ok answer ∧
            ((inMemory g.balances).watch qs).2.recordsAfter start = .ok answer ∧
            (FileLog.foldEntries (FileLog.collect start) (start.isZero, [])
              (l.watch qs).2.log.content).map (·.2) = .ok answer := by
  refine ⟨_, load_of_empty hg hlog none, rfl, fun qs => ?_⟩
  have hstart : ofParts (.ofBalances g.balances) ⟨[], none⟩ = (inMemory g.balances).written := rfl
  rw [hstart, watch_written]
  generalize ((inMemory g.balances).watch qs).2 = m
  have hrecords : BlockLog.records m.written.log = .ok m.log.records := FileLog.records_lines _ none
  have hanswer (start : Digest) :
      m.recordsAfter start = .ok (Record.after start m.log.records) := rfl
  refine ⟨rfl, m.log.records, hrecords, rfl, fun start => ⟨_, Record.behind_after start _, ?_⟩⟩
  refine ⟨(m.recordsAfter_written start).trans (hanswer start), hanswer start, ?_⟩
  refine (FileLog.foldEntries_collect m.written.log start).trans ?_
  exact congrArg (Except.map (Record.after start)) hrecords

/-- A reward is sealed, a block comes too late, and a peer asks for all there is. -/
def sampleRequests : List Request :=
  [.call (.add sampleReward), .call (.persist 0), .addBlocks [sampleBlock], .call (.recordsAfter .zero)]

theorem load_watch_sampleRequests :
    ∃ l : Ledger FileLog, load (Genesis.fileOf "sample" .empty) .absent none = (.ok l, .file []) ∧
      (l.watch sampleRequests).1 = ((inMemory .empty).watch sampleRequests).1 ∧
      (l.watch sampleRequests).2.view.state.height = 1 := by
  have hg := Genesis.ofFile_fileOf "sample" .empty
  obtain ⟨l, hl, -, h⟩ := load_watch _ .absent _ hg (Or.inl rfl)
  obtain rfl : l = ofParts (.ofBalances .empty) ⟨[], none⟩ := by
    cases hl.symm.trans (load_of_empty hg (Or.inl rfl) none)
    rfl
  exact ⟨_, hl, (h sampleRequests).1, by decide⟩

end Ledger
end LedgerNode
