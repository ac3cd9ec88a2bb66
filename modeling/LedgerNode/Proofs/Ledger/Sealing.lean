import LedgerNode.Proofs.Ledger.Atomicity
import LedgerNode.Proofs.Ledger.Order
import LedgerNode.Proofs.Ledger.Twin

/-!
Transactions that wait for a block are sealed into one once, in the order in which they were accepted.
What a log takes is noted in a journal beside it, of which the ledger knows nothing; what is read from
the log later is what the journal says.
-/
namespace LedgerNode

/-- A log, and the records that it has taken since the journal was begun. -/
structure Journal (L : Type) where
  log : L
  taken : List Record

namespace Journal

variable {L : Type}

instance [BlockLog L] : BlockLog (Journal L) where
  append j r :=
    match BlockLog.append j.log r with
    | (.ok (), log) => (.ok (), ⟨log, j.taken ++ [r]⟩)
    | (.error e, log) => (.error e, ⟨log, j.taken⟩)
  records j := BlockLog.records j.log

section logged

variable [BlockLog L] {j j' : Journal L} {r : Record}

/-- Nothing shows that there is a journal. -/
theorem twins_log : BlockLog.Twins (log : Journal L → L) where
  append_eq j r := by
    simp only [BlockLog.append]
    rcases BlockLog.append j.log r with ⟨e | ⟨⟩, log⟩ <;> rfl
  records_eq _ := rfl

theorem taken_of_append (h : BlockLog.append j r = (.ok (), j')) : j'.taken = j.taken ++ [r] := by
  simp only [BlockLog.append] at h
  split at h <;> cases h
  rfl

theorem taken_of_refused {e : LedgerError} (h : BlockLog.append j r = (.error e, j')) :
    j'.taken = j.taken := by
  simp only [BlockLog.append] at h
  split at h <;> cases h
  rfl

end logged

instance [BoundedLog L] : BoundedLog (Journal L) where
  bounded j limit := { j with log := BoundedLog.bounded j.log limit }

instance [LawfulLog L] : LawfulLog (Journal L) where
  Holds j rs := LawfulLog.Holds j.log rs
  records_eq h := LawfulLog.records_eq h
  holds_append {j j' rs r} h happend := by
    simp only [BlockLog.append] at happend
    split at happend <;> cases happend
    rename_i htook
    exact LawfulLog.holds_append h htook
  eq_of_refused {j j' r e} h := by
    simp only [BlockLog.append] at h
    split at h <;> cases h
    rename_i hrefused
    rw [LawfulLog.eq_of_refused hrefused]
  holds_bounded limit h := LawfulLog.holds_bounded limit h

end Journal

/-- The transactions of a request that were accepted to wait for a block. -/
def addedTransactions : Request → Response → List Transaction
  | .call (.add tx), .reply (.added (.ok ())) => [tx]
  | _, _ => []

def History.added (h : History) : List Transaction := h.flatMap fun e => addedTransactions e.1 e.2

@[simp] theorem History.added_cons (q : Request) (r : Response) (h : History) :
    added ((q, r) :: h) = addedTransactions q r ++ added h := rfl

/-- The digest that a sealing has answered with, if it succeeded. -/
def sealingDigests : Request → Response → List Digest
  | .call (.persist _), .reply (.committed (.ok d)) => [d]
  | _, _ => []

/-- The sealings that succeeded, by their answers. -/
def History.sealings (h : History) : List Digest := h.flatMap fun e => sealingDigests e.1 e.2

@[simp] theorem History.sealings_cons (q : Request) (r : Response) (h : History) :
    sealings ((q, r) :: h) = sealingDigests q r ++ sealings h := rfl

namespace Ledger

variable {L : Type}

/-- The ledger with a journal that begins now. -/
def journaled (l : Ledger L) : Ledger (Journal L) := ⟨l.snapshot, l.pending, ⟨l.log, []⟩⟩

section logged

variable [BlockLog L]

/-- The records that the log takes while a request is served. -/
def takenBy (l : Ledger L) (q : Request) : List Record := (l.journaled.serve q).2.log.taken

/-- Of these, the ones that seal what was waiting. -/
def sealedBy (l : Ledger L) (q : Request) : List Record :=
  match q with
  | .call (.persist _) => l.takenBy q
  | _ => []

/-- Sealing has succeeded: all that was waiting is written as one record, and nothing waits any more.  No
balance moves. -/
structure Seals (l : Ledger L) (now : UInt64) (r : Record) (m : Ledger L) : Prop where
  taken : l.takenBy (.call (.persist now)) = [r]
  transactions : r.block.transactions = l.pending
  pending_ne : l.pending ≠ []
  pending : m.pending = []
  balances : m.snapshot.balances = l.snapshot.balances

/-- What sealing does, and what its journal says. -/
theorem persist_journaled (l : Ledger L) (now : UInt64) :
    l.persist now = ((l.journaled.persist now).1, (l.journaled.persist now).2.mapLog Journal.log) ∧
      l.takenBy (.call (.persist now)) = (l.journaled.persist now).2.log.taken :=
  ⟨l.journaled.persist_mapLog Journal.twins_log now, rfl⟩

/-- Sealing that succeeds writes one record, and answers with its digest. -/
theorem seals_of_persist {l m : Ledger L} {now : UInt64} {d : Digest}
    (h : l.persist now = (.ok d, m)) : ∃ r : Record, r.digest = d ∧ l.Seals now r m := by
  obtain ⟨hplain, htaken⟩ := l.persist_journaled now
  rw [hplain] at h
  rcases l.journaled.persist_cases now with ⟨b, j, hne, hblock, happend, hp⟩ |
    ⟨b, e, j, -, -, hp⟩ | ⟨-, hp⟩ | ⟨-, -, hp⟩ <;> rw [hp] at h htaken <;> cases h
  exact ⟨Record.ofBlock b, rfl, htaken.trans (Journal.taken_of_append happend),
    transactions_pendingBlock? hblock, hne, rfl, rfl⟩

/-- Sealing that fails writes nothing, and all waits still. -/
theorem takenBy_of_persist_error {l m : Ledger L} {now : UInt64} {f : LedgerFault}
    (h : l.persist now = (.error f, m)) :
    l.takenBy (.call (.persist now)) = [] ∧ m.pending = l.pending := by
  obtain ⟨hplain, htaken⟩ := l.persist_journaled now
  rw [hplain] at h
  rcases l.journaled.persist_cases now with ⟨b, j, -, -, -, hp⟩ | ⟨b, e, j, -, happend, hp⟩ |
    ⟨-, hp⟩ | ⟨-, -, hp⟩ <;> rw [hp] at h htaken <;> cases h
  · exact ⟨htaken.trans (Journal.taken_of_refused happend), rfl⟩
  · exact ⟨htaken, rfl⟩
  · exact ⟨htaken, rfl⟩

theorem pending_commit (l : Ledger L) (c : CheckedBlock) : (l.commit c).2.pending = l.pending := by
  have hpromote (s : Snapshot) : (l.promote c.block s).2.pending = l.pending := by
    rcases l.promote_cases c.block s with ⟨log, -, h⟩ | ⟨e, log, -, h⟩ <;> rw [h]
  unfold commit
  split
  · exact hpromote _
  · split
    · exact hpromote _
    · rfl

end logged

/-- One request: what was waiting or comes to wait is sealed or waits, in the same order; and there is
one record for a sealing that succeeds, with the digest that it answers with. -/
theorem serve_seals [BoundedLog L] (l : Ledger L) (q : Request) :
    Record.transactions (l.sealedBy q) ++ (l.serve q).2.pending =
        l.pending ++ addedTransactions q (l.serve q).1 ∧
      (l.sealedBy q).map (·.digest) = sealingDigests q (l.serve q).1 := by
  cases q with
  | addBlocks bs => exact ⟨(l.pending_addBlocks bs).trans (List.append_nil _).symm, rfl⟩
  | call c =>
    cases c with
    | add tx =>
      rcases l.add_cases tx with ⟨s, -, h⟩ | ⟨e, -, h⟩ <;> rw [serve_add h]
      · exact ⟨rfl, rfl⟩
      · exact ⟨(List.append_nil _).symm, rfl⟩
    | addBlock b => exact ⟨(l.pending_addBlock b).trans (List.append_nil _).symm, rfl⟩
    | persist now =>
      rw [sealedBy]
      rcases h : l.persist now with ⟨f | d, m⟩ <;> rw [serve_persist h]
      · obtain ⟨htaken, hpending⟩ := takenBy_of_persist_error h
        rw [htaken, hpending]
        exact ⟨(List.append_nil _).symm, rfl⟩
      · obtain ⟨r, rfl, hseals⟩ := seals_of_persist h
        rw [hseals.taken, hseals.pending, List.append_nil]
        refine ⟨?_, rfl⟩
        simp [Record.transactions, hseals.transactions, addedTransactions]
    | recordsAfter start => exact ⟨(List.append_nil _).symm, rfl⟩
    | snapshot => exact ⟨(List.append_nil _).symm, rfl⟩

/-- The journal of a step notes the records that the step appends. -/
theorem Step.taken [BoundedLog L] {j j' : Ledger (Journal L)} {txs : List Transaction}
    {rs : List Record} (h : Step j txs rs j') : j'.log.taken = j.log.taken ++ rs := by
  cases h with
  | limited limit => exact (List.append_nil _).symm
  | refused happend => exact (Journal.taken_of_refused happend).trans (List.append_nil _).symm
  | added happly => exact (List.append_nil _).symm
  | committed happly happend => exact Journal.taken_of_append happend
  | persisted hpending hblock happend => exact Journal.taken_of_append happend

theorem Steps.taken [BoundedLog L] {j j' : Ledger (Journal L)} {txs : List Transaction}
    {rs : List Record} (h : Steps j txs rs j') : j'.log.taken = j.log.taken ++ rs := by
  induction h with
  | nil j => exact (List.append_nil _).symm
  | cons hstep _ ih => rw [ih, hstep.taken, List.append_assoc]

/-- What a lawful log takes is what is read from it behind the records that were there. -/
theorem holds_serve [LawfulLog L] {l : Ledger L} {old : List Record}
    (h : LawfulLog.Holds l.log old) (q : Request) :
    LawfulLog.Holds (l.serve q).2.log (old ++ l.takenBy q) := by
  have hplain : l.serve q =
      ((l.journaled.serve q).1, (l.journaled.serve q).2.mapLog Journal.log) :=
    l.journaled.serve_mapLog Journal.twins_log q
  obtain ⟨rs, -, hsteps⟩ := l.journaled.steps_serve q
  have htaken : l.takenBy q = rs := hsteps.taken
  have hjournal : LawfulLog.Holds l.journaled.log old := h
  rw [hplain, htaken]
  exact hsteps.holds hjournal

section runs

variable [BoundedLog L]

/-- The records that the log takes over a whole run. -/
def takenIn (l : Ledger L) : List Event → List Record
  | [] => []
  | e :: rest =>
    (l.bounded e.limit).takenBy e.request ++
      ((l.bounded e.limit).serve e.request).2.takenIn rest

/-- Of these, the ones that seal what was waiting. -/
def sealedIn (l : Ledger L) : List Event → List Record
  | [] => []
  | e :: rest =>
    (l.bounded e.limit).sealedBy e.request ++
      ((l.bounded e.limit).serve e.request).2.sealedIn rest

theorem sealedIn_sublist (l : Ledger L) (es : List Event) :
    (l.sealedIn es).Sublist (l.takenIn es) := by
  induction es generalizing l with
  | nil => exact .slnil
  | cons e es ih =>
    refine List.Sublist.append ?_ (ih _)
    cases e.request with
    | addBlocks bs => exact List.nil_sublist _
    | call c =>
      cases c with
      | persist now => exact .refl _
      | _ => exact List.nil_sublist _

/-- Over a run: what has been sealed and behind it what waits is what was waiting at first and behind it
what was added since, and each sealing that succeeded has its record. -/
theorem run_sealed (l : Ledger L) (es : List Event) :
    Record.transactions (l.sealedIn es) ++ (l.run es).2.pending =
        l.pending ++ (l.run es).1.added ∧
      (l.sealedIn es).map (·.digest) = (l.run es).1.sealings := by
  induction es generalizing l with
  | nil => exact ⟨(List.append_nil _).symm, rfl⟩
  | cons e es ih =>
    obtain ⟨hfirst, hdigest⟩ := (l.bounded e.limit).serve_seals e.request
    obtain ⟨hrest, hdigests⟩ := ih ((l.bounded e.limit).serve e.request).2
    have hpending : (l.bounded e.limit).pending = l.pending := rfl
    rw [run, History.added_cons, History.sealings_cons, sealedIn, Record.transactions_append,
      List.map_append, List.append_assoc, hrest, hdigest, hdigests, ← List.append_assoc, hfirst,
      List.append_assoc, hpending]
    exact ⟨rfl, rfl⟩

end runs

theorem holds_run [LawfulLog L] {l : Ledger L} {old : List Record}
    (h : LawfulLog.Holds l.log old) (es : List Event) :
    LawfulLog.Holds (l.run es).2.log (old ++ l.takenIn es) := by
  induction es generalizing l old with
  | nil => rwa [takenIn, List.append_nil]
  | cons e es ih =>
    have hbounded : LawfulLog.Holds (l.bounded e.limit).log old := LawfulLog.holds_bounded _ h
    rw [takenIn, ← List.append_assoc]
    exact ih (holds_serve hbounded e.request)

/-- Over any run of any ledger, whatever the log refuses in it, what has been sealed and behind it what
waits is what was waiting at first and behind it what was added since, in this very order.  The sealed
records are among those that the log takes, one for each sealing that succeeded, with the digest that it
answered with; and a log that is as good as a list of records is read as this list and behind it all that
the log takes.  After any run a sealing that succeeds writes all that waits as one record, and nothing
waits behind it; one that fails changes nothing.  Neither half of adding a block touches what waits. -/
theorem run_seals [LawfulLog L] (l : Ledger L) (es : List Event) :
    let m := (l.run es).2
    Record.transactions (l.sealedIn es) ++ m.pending = l.pending ++ (l.run es).1.added ∧
      (l.sealedIn es).map (·.digest) = (l.run es).1.sealings ∧
      (l.sealedIn es).Sublist (l.takenIn es) ∧
      (∀ old, LawfulLog.Holds l.log old → BlockLog.records m.log = .ok (old ++ l.takenIn es)) ∧
      (∀ now d n, m.persist now = (.ok d, n) →
        ∃ r : Record, r.digest = d ∧ m.Seals now r n ∧
          ∀ old, LawfulLog.Holds l.log old →
            BlockLog.records n.log = .ok (old ++ l.takenIn es ++ [r])) ∧
      (∀ now f n, m.persist now = (.error f, n) → m.takenBy (.call (.persist now)) = [] ∧ n = m) ∧
      (∀ b, (m.addBlock b).2.pending = m.pending) ∧
      ∀ c, (m.commit c).2.pending = m.pending := by
  intro m
  obtain ⟨hsealed, hdigests⟩ := l.run_sealed es
  refine ⟨hsealed, hdigests, l.sealedIn_sublist es,
    fun old hold => LawfulLog.records_eq (holds_run hold es), fun now d n hpersist => ?_,
    fun now f n hpersist => ?_, m.pending_addBlock, m.pending_commit⟩
  · obtain ⟨r, hdigest, hseals⟩ := seals_of_persist hpersist
    refine ⟨r, hdigest, hseals, fun old hold => ?_⟩
    have hafter := holds_serve (holds_run hold es) (.call (.persist now))
    rw [show m.takenBy _ = _ from hseals.taken, show (m.serve _) = _ from serve_persist hpersist]
      at hafter
    exact LawfulLog.records_eq hafter
  · exact ⟨(takenBy_of_persist_error hpersist).1, eq_of_persist_error hpersist⟩

/-- A reward is sealed, a block of a peer comes too late, and another reward comes in. -/
def resealing : List Event := sampleRun ++ [⟨.call (.add lateReward), none⟩]

/-- The first reward is in the one record that there is.  Sealing once more succeeds: the second reward
has a record for itself, and nothing waits. -/
theorem run_seals_resealing :
    let m := ((inMemory .empty).run resealing).2
    ∃ r d n s, (inMemory .empty).sealedIn resealing = [r] ∧ r.block.transactions = [sampleReward] ∧
      BlockLog.records m.log = .ok [r] ∧ m.pending = [lateReward] ∧
      m.persist 0 = (.ok d, n) ∧ s.digest = d ∧ m.Seals 0 s n ∧ s.block.transactions = [lateReward] ∧
      n.pending = [] ∧ BlockLog.records n.log = .ok [r, s] := by
  intro m
  have hempty : LawfulLog.Holds (inMemory .empty).log [] := rfl
  obtain ⟨-, -, -, hread, hpersist, -⟩ := run_seals (inMemory .empty) resealing
  obtain ⟨r, hsealed, htaken, htransactions⟩ : ∃ r, (inMemory .empty).sealedIn resealing = [r] ∧
      (inMemory .empty).takenIn resealing = [r] ∧ r.block.transactions = [sampleReward] :=
    ⟨_, rfl, rfl, rfl⟩
  obtain ⟨d, n, hn⟩ : ∃ d n, m.persist 0 = (.ok d, n) := ⟨_, _, rfl⟩
  obtain ⟨s, hdigest, hseals, hsealing⟩ := hpersist 0 d n hn
  have hrecords := hread [] hempty
  have hafter := hsealing [] hempty
  rw [htaken] at hrecords hafter
  have hpending : m.pending = [lateReward] := rfl
  exact ⟨r, d, n, s, hsealed, htransactions, hrecords, hpending, hn, hdigest, hseals,
    hseals.transactions.trans hpending, hseals.pending, hafter⟩

end Ledger
end LedgerNode
