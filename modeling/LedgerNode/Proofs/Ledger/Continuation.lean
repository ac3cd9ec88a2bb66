import LedgerNode.Proofs.Ledger.LastLine
import LedgerNode.Proofs.Ledger.Reload

/-!
Ledgers that go on from a log which someone else wrote.  What they append stands behind what was there,
so it depends on the last line of that log whether the log can be read and loaded again.
-/
namespace LedgerNode.Ledger

open FileLog

/-- Loading a file replays it on top of the balances of the genesis file. -/
theorem load_file {genesis : FileEntry} {g : Genesis} (hg : Genesis.ofFile genesis = .ok g)
    (content : Bytes) (limit : SizeLimit) :
    load genesis (.file content) limit =
      ((replayLog (.ofBalances g.balances) content).map fun s => ofParts s ⟨content, limit⟩,
        .file content) := by
  simp only [load, hg, FileEntry.readOrCreate]

/-- What a ledger was loaded from: its log can be read, and leads to its state. -/
theorem load_eq_ok {genesis log stored : FileEntry} {limit : SizeLimit} {l : Ledger FileLog}
    (h : load genesis log limit = (.ok l, stored)) :
    ∃ (g : Genesis) (rs : List Record), Genesis.ofFile genesis = .ok g ∧
      entries l.log.content = rs.map .ok ∧
      rs.foldlM Snapshot.replay (.ofBalances g.balances) = .ok l.snapshot ∧ l.pending = [] := by
  rw [load] at h
  cases hg : Genesis.ofFile genesis with
  | error e =>
    rw [hg] at h
    cases h
  | ok g =>
    cases hread : log.readOrCreate with
    | error cause =>
      rw [hg, hread] at h
      cases h
    | ok content =>
      cases hreplay : replayLog (.ofBalances g.balances) content with
      | error e =>
        rw [hg, hread] at h
        simp only [hreplay] at h
        cases h
      | ok s =>
        rw [hg, hread] at h
        simp only [hreplay] at h
        cases h
        obtain ⟨rs, hrs⟩ := entries_of_foldEntries hreplay
        rw [replayLog, foldEntries_of_entries _ _ hrs] at hreplay
        exact ⟨g, rs, rfl, hrs, hreplay, rfl⟩

/-- A step writes the lines of its records behind the log, and nothing else. -/
theorem Step.content {l m : Ledger FileLog} {txs : List Transaction} {rs : List Record}
    (h : Step l txs rs m) : m.log.content = l.log.content ++ rs.flatMap line := by
  have hok {r : Record} {log : FileLog} (happend : l.log.append r = (.ok (), log)) :
      log.content = l.log.content ++ [r].flatMap line := by
    rcases l.log.append_cases r with hr | hr <;> cases hr.symm.trans happend
    simp
  cases h with
  | limited limit => exact (List.append_nil _).symm
  | @refused r e log happend =>
    rw [show log = l.log from LawfulLog.eq_of_refused happend]
    exact (List.append_nil _).symm
  | added happly => exact (List.append_nil _).symm
  | committed happly happend => exact hok happend
  | persisted hpending hblock happend => exact hok happend

theorem Steps.content {l m : Ledger FileLog} {txs : List Transaction} {rs : List Record}
    (h : Steps l txs rs m) : m.log.content = l.log.content ++ rs.flatMap line := by
  induction h with
  | nil l => exact (List.append_nil _).symm
  | cons hstep _ ih => rw [ih, hstep.content, List.flatMap_append, List.append_assoc]

theorem recordsAfter_zero (l : Ledger FileLog) : l.recordsAfter .zero = l.log.records := by
  change l.log.records.map (Record.after .zero) = _
  cases l.log.records <;> simp [Except.map]

theorem flatMap_line_injective {rs ss : List Record} (h : rs.flatMap line = ss.flatMap line) :
    rs = ss := by
  have hentries := entries_lines rs
  rw [h, entries_lines] at hentries
  exact (List.map_injective_iff.mpr (fun _ _ => Except.ok.inj) hentries).symm

/-- Where a record goes on in a line of its own, all records are read back. -/
theorem entries_append_ended {content : Bytes} {old : List Record}
    (h : entries content = old.map .ok) {new : List Record}
    (hended : isEnded content = true ∨ new = []) :
    entries (content ++ new.flatMap line) = (old ++ new).map .ok := by
  cases new with
  | nil => simpa using h
  | cons r new =>
    obtain ⟨before, -, hbefore, hentries⟩ := entries_append h r new
    have hcontent : isEnded content = true := hended.resolve_right (List.cons_ne_nil r new)
    rw [hentries, hcontent, hbefore hcontent, if_pos rfl, List.map_append, List.map_cons]

/-- Where it does not, no record is read from that line. -/
theorem entries_append_unended {content : Bytes} {old : List Record}
    (h : entries content = old.map .ok) (hended : isEnded content = false) {new : List Record}
    (hnew : new ≠ []) :
    ∃ before rest, before <+: old ∧ entries (content ++ new.flatMap line) =
      before.map .ok ++ .error (lastLineFault content) :: rest := by
  obtain ⟨r, new, rfl⟩ := List.exists_cons_of_ne_nil hnew
  obtain ⟨before, hprefix, -, hentries⟩ := entries_append h r new
  rw [hended] at hentries
  exact ⟨before, _, hprefix, hentries⟩

/-- A log that was replayed once can be replayed up to any of its records. -/
theorem replay_prefix {s t : Snapshot} {before rs : List Record} (hbefore : before <+: rs)
    (h : rs.foldlM Snapshot.replay s = .ok t) :
    ∃ u, before.foldlM Snapshot.replay s = .ok u := by
  obtain ⟨after, rfl⟩ := hbefore
  rw [List.foldlM_append] at h
  cases hfirst : before.foldlM Snapshot.replay s with
  | ok u => exact ⟨u, rfl⟩
  | error e =>
    rw [hfirst] at h
    cases h

/-- Loading the log again once records were appended to it. -/
theorem load_append {genesis : FileEntry} {g : Genesis} (hg : Genesis.ofFile genesis = .ok g)
    {content : Bytes} {old : List Record} (h : entries content = old.map .ok) {s : Snapshot}
    (hs : old.foldlM Snapshot.replay (.ofBalances g.balances) = .ok s) (new : List Record)
    (limit : SizeLimit) :
    let reloaded := (load genesis (.file (content ++ new.flatMap line)) limit).1
    (isEnded content = true ∨ new = [] →
      reloaded = (s.applyAll (Record.transactions new)).map fun t =>
        ofParts (t.along new) ⟨content ++ new.flatMap line, limit⟩) ∧
    (isEnded content = false → new ≠ [] → reloaded = .error (lastLineFault content)) := by
  intro reloaded
  have hreloaded : reloaded = (replayLog (.ofBalances g.balances) (content ++ new.flatMap line)).map
      fun t => ofParts t ⟨content ++ new.flatMap line, limit⟩ :=
    congrArg Prod.fst (load_file hg _ limit)
  rw [hreloaded, replayLog]
  refine ⟨fun hended => ?_, fun hended hnew => ?_⟩
  · rw [foldEntries_of_entries _ _ (entries_append_ended h hended), List.foldlM_append, hs]
    change (new.foldlM Snapshot.replay s).map _ = _
    rw [Snapshot.foldlM_replay]
    cases s.applyAll (Record.transactions new) <;> rfl
  · obtain ⟨before, rest, hprefix, hentries⟩ := entries_append_unended h hended hnew
    obtain ⟨u, hu⟩ := replay_prefix hprefix hs
    rw [foldEntries_unreadable _ _ hentries, hu]
    rfl

/-- Appending to a log that can be read keeps it readable exactly where its last line holds nothing but
white space between tokens: then the log holds the old records and the new ones.  So it goes for a
ledger that was loaded from such a log, whatever is asked of it.  Loading it again succeeds where the
new transactions apply in the order of the log, which is the case when no block came in while others
waited; it leads to the tip, the height and the balances of the ledger, short of what still waits.
Behind any other last line the first record that is appended spoils the log. -/
theorem append_readable_iff_ended (log : FileLog) :
    (∀ (log' : FileLog) (rs : List Record) (r : Record), log.records = .ok rs →
      log.append r = (.ok (), log') →
        log'.records =
          if isEnded log.content then .ok (rs ++ [r]) else .error (lastLineFault log.content)) ∧
    ∀ (genesis file stored : FileEntry) (limit : SizeLimit) (l : Ledger FileLog) (es : List Event)
      (again : SizeLimit), load genesis file limit = (.ok l, stored) → l.log = log →
        let m := (l.run es).2
        let reloaded := (load genesis (.file m.log.content) again).1
        ∃ old new, l.recordsAfter .zero = .ok old ∧ new.length = (l.run es).1.commits ∧
          (isEnded log.content = true ∨ new = [] →
            m.recordsAfter .zero = .ok (old ++ new) ∧
            ((∃ n, reloaded = .ok n) ↔
              ∃ s, l.snapshot.applyAll (Record.transactions new) = .ok s) ∧
            (l.runKeepsOrder es = true → ∃ n, reloaded = .ok n) ∧
            ∀ n, reloaded = .ok n → n.log = ⟨m.log.content, again⟩ ∧ n.pending = [] ∧
              n.snapshot.tip = m.snapshot.tip ∧ n.snapshot.height = m.snapshot.height ∧
              n.snapshot.balances.Moves m.pending m.snapshot.balances ∧
              (m.pending = [] → n.snapshot = m.snapshot)) ∧
          (isEnded log.content = false → new ≠ [] →
            m.recordsAfter .zero = .error (lastLineFault log.content) ∧
            reloaded = .error (lastLineFault log.content)) := by
  refine ⟨fun log' rs r hrs happend => ?_, ?_⟩
  · rw [records_eq_ok_iff] at hrs
    have hcontent : log'.content = log.content ++ [r].flatMap line := by
      rcases log.append_cases r with hr | hr <;> cases hr.symm.trans happend
      simp
    cases hended : isEnded log.content with
    | true =>
      rw [if_pos rfl]
      refine records_of_entries ?_
      rw [hcontent, entries_append_ended hrs (Or.inl hended)]
    | false =>
      obtain ⟨before, rest, -, hentries⟩ := entries_append_unended hrs hended (List.cons_ne_nil r [])
      rw [if_neg (by decide)]
      exact records_unreadable (by rw [hcontent, hentries])
  · rintro genesis file stored limit l es again hload rfl m reloaded
    obtain ⟨g, old, hg, hold, hreplay, hpending⟩ := load_eq_ok hload
    obtain ⟨new, hlength, hsteps⟩ := l.steps_run es
    have hcontent : m.log.content = l.log.content ++ new.flatMap line := hsteps.content
    obtain ⟨hagain, hspoiled⟩ := load_append hg hold hreplay new again
    rw [← hcontent] at hagain hspoiled
    refine ⟨old, new, by rw [recordsAfter_zero, records_of_entries hold], hlength, fun hended => ?_,
      fun hended hnew => ⟨?_, hspoiled hended hnew⟩⟩
    · have hreloaded := hagain hended
      have hok : (∃ n, reloaded = .ok n) ↔
          ∃ s, l.snapshot.applyAll (Record.transactions new) = .ok s := by
        rw [show reloaded = _ from hreloaded]
        cases l.snapshot.applyAll (Record.transactions new) <;> simp [Except.map]
      refine ⟨?_, hok, fun horder => hok.mpr ?_, fun n hn => ?_⟩
      · rw [recordsAfter_zero]
        exact records_of_entries (by rw [hcontent, entries_append_ended hold hended])
      · obtain ⟨ss, hsteps', hrun⟩ := l.run_order es horder
        -- both runs of records were appended to the one log
        obtain rfl : new = ss :=
          flatMap_line_injective (List.append_cancel_left (hcontent.symm.trans hsteps'.content))
        rw [hpending, List.nil_append] at hrun
        exact applyAll_of_order hsteps' hrun
      · obtain ⟨s, hs⟩ := hok.mp ⟨n, hn⟩
        rw [show reloaded = _ from hreloaded, hs] at hn
        cases hn
        exact ⟨rfl, rfl, hsteps.replayed hpending hs⟩
    · obtain ⟨before, rest, -, hentries⟩ := entries_append_unended hold hended hnew
      rw [recordsAfter_zero]
      exact records_unreadable (by rw [hcontent, hentries])

/-- A block goes behind an ended line, and a run that seals what it added is loaded again. -/
theorem append_readable_iff_ended_sampleRun :
    FileLog.records ⟨line (.ofBlock sampleBlock) ++ line (.ofBlock spendingBlock), none⟩ =
        .ok [.ofBlock sampleBlock, .ofBlock spendingBlock] ∧
      ∃ l₀ : Ledger FileLog,
        load (Genesis.fileOf "sample" .empty) .absent none = (.ok l₀, .file []) ∧
        ∃ n, (load (Genesis.fileOf "sample" .empty) (.file (l₀.run sampleRun).2.log.content)
            none).1 = .ok n ∧ n.snapshot = (l₀.run sampleRun).2.snapshot := by
  constructor
  · have hread : FileLog.records ⟨line (.ofBlock sampleBlock), none⟩ = .ok [.ofBlock sampleBlock] := by
      simpa using records_lines [.ofBlock sampleBlock] none
    have h := (append_readable_iff_ended _).1 _ _ (.ofBlock spendingBlock) hread
      (append_unlimited _ _)
    have hended : isEnded (line (.ofBlock sampleBlock)) = true := isEnded_append_line [] _
    exact h.trans (if_pos hended)
  · have hload : load (Genesis.fileOf "sample" .empty) .absent none = _ :=
      load_of_empty (Genesis.ofFile_fileOf "sample" .empty) (Or.inl rfl) none
    obtain ⟨old, new, -, -, hended, -⟩ :=
      (append_readable_iff_ended _).2 _ _ _ _ _ sampleRun none hload rfl
    obtain ⟨-, -, horder, hreloaded⟩ := hended (Or.inl rfl)
    obtain ⟨n, hn⟩ := horder (by decide)
    exact ⟨_, hload, n, hn, (hreloaded n hn).2.2.2.2.2 (by decide)⟩

/-- The one record of a log whose line does not end. -/
def unendedRecord : Record := .ofBlock sampleBlock

def unendedLog : Bytes := unendedRecord.toJson.render

/-- A block behind that record. -/
def unendedNext : Block := ⟨⟨unendedRecord.digest, 2, 0, 0⟩, []⟩

/-- A log without a line feed at its end is loaded, takes a block, and cannot be read any more. -/
theorem append_spoils_unended :
    ∃ l : Ledger FileLog,
      load (Genesis.fileOf "sample" .empty) (.file unendedLog) none = (.ok l, .file unendedLog) ∧
      l.recordsAfter .zero = .ok [unendedRecord] ∧
      (l.addBlock unendedNext).1 = .ok unendedNext.digest ∧
      (l.addBlock unendedNext).2.recordsAfter .zero =
        .error (.corruptLog 1 (.broken .malformed)) ∧
      (load (Genesis.fileOf "sample" .empty) (.file (l.addBlock unendedNext).2.log.content) none).1 =
        .error (.corruptLog 1 (.broken .malformed)) := by
  have hg := Genesis.ofFile_fileOf "sample" .empty
  have hread : entries unendedLog = [unendedRecord].map .ok := entries_render unendedRecord
  have hreplay : [unendedRecord].foldlM Snapshot.replay (.ofBalances .empty) =
      .ok ⟨.empty, unendedRecord.digest, 1⟩ := rfl
  have hload : load (Genesis.fileOf "sample" .empty) (.file unendedLog) none =
      (.ok (ofParts ⟨.empty, unendedRecord.digest, 1⟩ ⟨unendedLog, none⟩), .file unendedLog) := by
    rw [load_file hg, replayLog, foldEntries_of_entries _ _ hread, hreplay]
    rfl
  have hadd : (ofParts ⟨.empty, unendedRecord.digest, 1⟩ (FileLog.mk unendedLog none)).addBlock
      unendedNext = (.ok unendedNext.digest, ⟨⟨.empty, unendedNext.digest, 2⟩, [],
        ⟨unendedLog ++ line (.ofBlock unendedNext), none⟩⟩) :=
    addBlock_eq_ok_iff.mpr ⟨rfl, rfl, _, _, rfl, append_unlimited _ _, rfl, rfl⟩
  have hended : isEnded unendedLog = false := isEnded_render unendedRecord
  have hfault : lastLineFault unendedLog = .corruptLog 1 (.broken .malformed) := by
    rw [lastLineFault, unendedLog, Text.lines_of_notMem (Json.newline_notMem_render _)]
    rfl
  have hnew : [Record.ofBlock unendedNext] ≠ [] := List.cons_ne_nil _ _
  have hcontent : unendedLog ++ line (.ofBlock unendedNext) =
      unendedLog ++ [Record.ofBlock unendedNext].flatMap line := by simp
  obtain ⟨before, rest, -, hentries⟩ := entries_append_unended hread hended hnew
  have hspoiled := (load_append hg hread hreplay [Record.ofBlock unendedNext] none).2 hended hnew
  rw [← hcontent, hfault] at hentries hspoiled
  refine ⟨_, hload, ?_, congrArg Prod.fst hadd, ?_, ?_⟩
  · rw [recordsAfter_zero]
    exact records_of_entries hread
  · rw [hadd, recordsAfter_zero]
    exact records_unreadable hentries
  · rw [hadd]
    exact hspoiled

end LedgerNode.Ledger
