import LedgerNode.Proofs.Ledger.Run

/-!
An operation of a ledger that fails leaves it as it was, with every byte of its log.  A batch of blocks
that fails has added those before the one that is refused, and no more.
-/
namespace LedgerNode

theorem FileLog.length_line_pos (r : Record) : 0 < (line r).length := by simp [line]

/-- Writing a record may break off behind any number of its bytes.  They are cut off again. -/
theorem FileLog.append_torn (log : FileLog) (r : Record) {n : Nat} (hn : n < (line r).length) :
    let full := BoundedLog.bounded log (some (log.content.length + n))
    full.write (line r) = (false, { full with content := log.content ++ (line r).take n }) ∧
      full.append r = (.error (.file .tooLarge), full) := by
  intro full
  have hroom : full.limit.behind full.content.length = some n :=
    congrArg some (Nat.add_sub_cancel_left _ n)
  have hwrite :
      full.write (line r) = (false, { full with content := log.content ++ (line r).take n }) := by
    rw [write, hroom]
    have hadmits : SizeLimit.admits (some n) (line r).length = false := by
      simpa [SizeLimit.admits] using hn
    rw [hadmits]
    rfl
  refine ⟨hwrite, ?_⟩
  rw [append, hwrite]
  have hcut : (log.content ++ (line r).take n).take log.content.length = log.content :=
    List.take_left
  exact congrArg (fun content => (_, FileLog.mk content full.limit)) hcut

namespace Ledger

variable {L : Type}

theorem eq_of_add_error {l m : Ledger L} {tx : Transaction} {e : LedgerError}
    (h : l.add tx = (.error e, m)) : m = l := by
  rcases l.add_cases tx with ⟨s, -, hadd⟩ | ⟨e', -, hadd⟩ <;> cases hadd.symm.trans h
  rfl

/-- Blocks are added one by one, and each is committed. -/
inductive Adds [BlockLog L] : Ledger L → List Block → Ledger L → Prop
  | nil (l : Ledger L) : Adds l [] l
  | cons {l m n : Ledger L} {b : Block} {bs : List Block} {d : Digest}
      (hadd : l.addBlock b = (.ok d, m)) (hrest : Adds m bs n) : Adds l (b :: bs) n

/-- A batch that fails has added the blocks before the first that is refused. -/
theorem adds_of_addBlocksFrom_error [BlockLog L] {l m : Ledger L} {bs : List Block} {n : Nat}
    {e : BatchError} (h : l.addBlocksFrom n bs = (.error e, m)) :
    ∃ done b rest u, bs = done ++ b :: rest ∧ e.applied = n + done.length ∧ l.Adds done u ∧
      u.addBlock b = (.error e.cause, m) := by
  induction bs generalizing l n with
  | nil => cases h
  | cons b bs ih =>
    rw [addBlocksFrom] at h
    rcases hadd : l.addBlock b with ⟨cause | d, u⟩
    · rw [hadd] at h
      cases h
      exact ⟨[], b, bs, l, rfl, rfl, .nil l, hadd⟩
    · rw [hadd] at h
      obtain ⟨done, c, rest, v, rfl, happlied, hdone, hrefused⟩ := ih h
      refine ⟨b :: done, c, rest, v, rfl, ?_, .cons hadd hdone, hrefused⟩
      rw [happlied, List.length_cons]
      omega

section lawful

variable [LawfulLog L] {l m : Ledger L} {f : LedgerFault}

theorem eq_of_promote_error {b : Block} {s : Snapshot} (h : l.promote b s = (.error f, m)) :
    m = l := by
  rcases l.promote_cases b s with ⟨log, -, hp⟩ | ⟨e, log, happend, hp⟩ <;> cases hp.symm.trans h
  rw [LawfulLog.eq_of_refused happend]

/-- The second half of adding a block fails without a trace as well. -/
theorem eq_of_commit_error {c : CheckedBlock} (h : l.commit c = (.error f, m)) : m = l := by
  unfold commit at h
  split at h
  · exact eq_of_promote_error h
  · split at h
    · exact eq_of_promote_error h
    · cases h
      rfl

theorem eq_of_addBlock_error {b : Block} (h : l.addBlock b = (.error f, m)) : m = l := by
  unfold addBlock at h
  split at h
  · exact eq_of_commit_error h
  · cases h
    rfl

theorem eq_of_persist_error {now : UInt64} (h : l.persist now = (.error f, m)) : m = l := by
  rcases l.persist_cases now with ⟨b, log, -, -, -, hp⟩ | ⟨b, e, log, -, happend, hp⟩ | ⟨-, hp⟩ |
    ⟨-, -, hp⟩ <;> cases hp.symm.trans h
  · rw [LawfulLog.eq_of_refused happend]
  all_goals rfl

theorem adds_of_addBlocks_error {bs : List Block} {e : BatchError}
    (h : l.addBlocks bs = (.error e, m)) :
    l.Adds (bs.take e.applied) m ∧
      ∃ b, bs[e.applied]? = some b ∧ m.addBlock b = (.error e.cause, m) := by
  obtain ⟨done, b, rest, u, rfl, happlied, hdone, hrefused⟩ := adds_of_addBlocksFrom_error h
  obtain rfl := eq_of_addBlock_error hrefused
  rw [Nat.zero_add] at happlied
  rw [happlied]
  exact ⟨by simpa using hdone, b, by simp, hrefused⟩

end lawful

/-- A ledger that keeps its blocks in a file, whatever state it is in and however much room there is
for the file.  What it refuses leaves it as it was, file included: a transaction, a block at its first
or its second check, or the sealing of what waits.  So does a call that panics.  A batch that stops has
added the blocks before the first one that is refused, one by one.  And a write may have broken off
behind any number of bytes. -/
theorem eq_of_error (l : Ledger FileLog) :
    (∀ tx e m, l.add tx = (.error e, m) → m = l) ∧
    (∀ b f m, l.addBlock b = (.error f, m) → m = l) ∧
    (∀ c f m, l.commit c = (.error f, m) → m = l) ∧
    (∀ now f m, l.persist now = (.error f, m) → m = l) ∧
    (∀ bs e m, l.addBlocks bs = (.error e, m) →
      l.Adds (bs.take e.applied) m ∧
        ∃ b, bs[e.applied]? = some b ∧ m.addBlock b = (.error e.cause, m)) ∧
    ∀ (r : Record) (n : Nat), n < (FileLog.line r).length →
      let full := (l.bounded (some (l.log.content.length + n))).log
      full.write (FileLog.line r) =
          (false, { full with content := l.log.content ++ (FileLog.line r).take n }) ∧
        full.append r = (.error (.file .tooLarge), full) :=
  ⟨fun _ _ _ => eq_of_add_error, fun _ _ _ => eq_of_addBlock_error,
    fun _ _ _ => eq_of_commit_error, fun _ _ _ => eq_of_persist_error,
    fun _ _ _ => adds_of_addBlocks_error, fun r _ => l.log.append_torn r⟩

/-- A ledger whose file is empty. -/
def emptyFile : Ledger FileLog := ofParts (.ofBalances .empty) ⟨[], none⟩

/-- A transfer of what is not there. -/
def sampleTransfer : Transaction := { sampleReward with reason := .other }

/-- A block that was checked against a later state than it is committed to. -/
def staleBlock : CheckedBlock :=
  ⟨{ sampleBlock with header.height := 2 }, ⟨.empty, .zero, 1⟩, ⟨.empty, .zero, 1⟩⟩

/-- A ledger with an empty file refuses a transfer, a block that comes too early, the sealing of
nothing, the second of two equal blocks, and any block that it has no room for. -/
theorem eq_of_error_emptyFile :
    emptyFile.add sampleTransfer = (.error (.insufficientBalance sampleMiner 5 0), emptyFile) ∧
    emptyFile.addBlock staleBlock.block = (.error (.error (.nextBlockHeight 0 2)), emptyFile) ∧
    emptyFile.commit staleBlock = (.error (.error (.nextBlockHeight 0 2)), emptyFile) ∧
    emptyFile.persist 0 = (.error (.error .nothingToPersist), emptyFile) ∧
    (∃ m, emptyFile.addBlocks [sampleBlock, sampleBlock] =
        (.error ⟨1, .error (.nextBlockHeight 1 1)⟩, m) ∧
      emptyFile.Adds [sampleBlock] m ∧
      m.addBlock sampleBlock = (.error (.error (.nextBlockHeight 1 1)), m)) ∧
    (emptyFile.bounded (some 0)).log.append (.ofBlock sampleBlock) =
      (.error (.file .tooLarge), ⟨[], some 0⟩) := by
  obtain ⟨hadd, hblock, hcommit, hpersist, hbatch, htorn⟩ := eq_of_error emptyFile
  have hstops : (emptyFile.addBlocks [sampleBlock, sampleBlock]).1 =
      .error ⟨1, .error (.nextBlockHeight 1 1)⟩ := by
    decide
  rcases hstopped : emptyFile.addBlocks [sampleBlock, sampleBlock] with ⟨r, m⟩
  obtain rfl : r = .error ⟨1, .error (.nextBlockHeight 1 1)⟩ := by rw [← hstops, hstopped]
  obtain ⟨hdone, b, hb, hrefused⟩ := hbatch _ _ _ hstopped
  obtain rfl : sampleBlock = b := Option.some.inj hb
  refine ⟨Prod.ext rfl (hadd sampleTransfer _ _ rfl), Prod.ext rfl (hblock staleBlock.block _ _ rfl),
    Prod.ext rfl (hcommit staleBlock _ _ rfl), Prod.ext rfl (hpersist 0 _ _ rfl),
    ⟨m, rfl, hdone, hrefused⟩, ?_⟩
  exact (htorn (.ofBlock sampleBlock) 0 (FileLog.length_line_pos _)).2

end Ledger
end LedgerNode
