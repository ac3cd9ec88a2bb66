import LedgerNode.Proofs.Ledger.Atomicity
import LedgerNode.Proofs.Ledger.Chain

/-!
A ledger that lags behind another one catches up with it.  Its tip tells the other where to begin, as
long as no two blocks of the chain have one digest; and what has extended a state once extends the same
state again.
-/
namespace LedgerNode

namespace Record

/-- Digests tell the blocks of records apart, and none is that of the beginning. -/
structure AreToldApart (rs : List Record) : Prop where
  block_eq {r s : Record} : r ∈ rs → s ∈ rs → r.block.digest = s.block.digest → r.block = s.block
  digest_ne_zero {r : Record} : r ∈ rs → r.block.digest ≠ .zero

theorem AreToldApart.mono {rs ss : List Record} (h : AreToldApart ss) (hsub : rs ⊆ ss) :
    AreToldApart rs where
  block_eq hr hs := h.block_eq (hsub hr) (hsub hs)
  digest_ne_zero hr := h.digest_ne_zero (hsub hr)

namespace IsChain

variable {rs : List Record}

theorem take (h : IsChain rs) (i : Nat) : IsChain (rs.take i) := by
  induction h with
  | nil => simpa using nil
  | @snoc rs b hrs hheight hparent ih =>
    by_cases hi : i ≤ rs.length
    · rwa [List.take_append_of_le_length hi]
    · rw [List.take_of_length_le (by simp; omega)]
      exact hrs.snoc hheight hparent

theorem lastDigest_ne_zero (h : IsChain rs) (happart : AreToldApart rs) (hne : rs ≠ []) :
    lastDigest rs ≠ .zero := by
  cases h with
  | nil => exact absurd rfl hne
  | @snoc rs b =>
    rw [lastDigest_append]
    exact happart.digest_ne_zero (r := ofBlock b) (by simp)

/-- Chains that end in one digest are the same.  The digest tells the last block, and that tells the
digest of the one before it, down to the beginning. -/
theorem eq_of_lastDigest {ss all : List Record} (happart : AreToldApart all) (hrs : IsChain rs)
    (hss : IsChain ss) (hrsub : rs ⊆ all) (hssub : ss ⊆ all) (h : lastDigest rs = lastDigest ss) :
    rs = ss := by
  induction hrs generalizing ss with
  | nil =>
    by_contra hne
    exact hss.lastDigest_ne_zero (happart.mono hssub) (Ne.symm hne) h.symm
  | @snoc rs b hrs hheight hparent ih =>
    cases hss with
    | nil =>
      exact absurd h
        ((hrs.snoc hheight hparent).lastDigest_ne_zero (happart.mono hrsub) (by simp))
    | @snoc ss c hss _ hparent' =>
      obtain ⟨hrs', hb⟩ := List.append_subset.mp hrsub
      obtain ⟨hss', hc⟩ := List.append_subset.mp hssub
      rw [lastDigest_append, lastDigest_append] at h
      obtain rfl : b = c :=
        happart.block_eq (r := ofBlock b) (s := ofBlock c) (hb (by simp)) (hc (by simp)) h
      rw [ih hss hrs' hss' (hparent.symm.trans hparent')]

/-- No two records of a chain have one digest. -/
theorem digest_ne (h : IsChain rs) (happart : AreToldApart rs) {i j : Nat} {r s : Record}
    (hr : rs[i]? = some r) (hs : rs[j]? = some s) (hij : i < j) : r.digest ≠ s.digest := by
  intro hdigest
  have htake : rs.take (i + 1) = rs.take (j + 1) := by
    refine eq_of_lastDigest happart (h.take _) (h.take _) (List.take_subset _ _)
      (List.take_subset _ _) ?_
    rw [lastDigest_take_succ hr, lastDigest_take_succ hs, hdigest]
  have hlength := congrArg List.length htake
  have hj : j < rs.length := (List.getElem?_eq_some_iff.mp hs).1
  rw [List.length_take_of_le (by omega), List.length_take_of_le hj] at hlength
  omega

/-- The end of a chain's first part tells where the rest begins. -/
theorem after_lastDigest {new : List Record} (h : IsChain (rs ++ new))
    (happart : AreToldApart (rs ++ new)) : after (lastDigest rs) (rs ++ new) = new := by
  rcases List.eq_nil_or_concat rs with rfl | ⟨before, r, rfl⟩
  · rw [lastDigest_nil, after_zero, List.nil_append]
  · rw [List.concat_eq_append, lastDigest_append, List.append_assoc, List.singleton_append] at *
    have hlast : (before ++ r :: new)[before.length]? = some r := by simp
    refine after_append ?_ (fun s hs => ?_) rfl new
    · rw [(h.of_getElem? hlast).2.2]
      exact happart.digest_ne_zero (List.mem_of_getElem? hlast)
    · obtain ⟨i, hi⟩ := List.getElem?_of_mem hs
      have hlt : i < before.length := (List.getElem?_eq_some_iff.mp hi).1
      have hsame : (before ++ r :: new)[i]? = before[i]? := List.getElem?_append_left hlt
      exact h.digest_ne happart (hsame.trans hi) hlast hlt

end IsChain

end Record

/-- A block that extends the tip, and becomes it. -/
def Snapshot.extend (s : Snapshot) (b : Block) : Except LedgerFault Snapshot :=
  (s.applyBlock b).map fun t => t.advance b.digest b.header.height

theorem Snapshot.foldlM_extend_cons {s t : Snapshot} {b : Block} (h : s.extend b = .ok t)
    (bs : List Block) : (b :: bs).foldlM extend s = bs.foldlM extend t := by
  rw [List.foldlM_cons, h]
  rfl

/-- The request brings in blocks and nothing else. -/
def Request.addsBlocks : Request → Bool
  | .call (.addBlock _) | .addBlocks _ => true
  | .call _ => false

namespace Ledger

variable {L : Type}

section lawful

variable [LawfulLog L]

/-- A ledger as it begins: it has balances, and no block. -/
structure Begins (b : Balances) (l : Ledger L) : Prop where
  state : l.snapshot = .ofBalances b
  log : LawfulLog.Holds l.log []

theorem begins_inMemory (b : Balances) : (inMemory b).Begins b := ⟨rfl, rfl⟩

theorem begins_load {genesis log : FileEntry} {g : Genesis} (hg : Genesis.ofFile genesis = .ok g)
    (hlog : log = .absent ∨ log = .file []) {limit : SizeLimit} {l : Ledger FileLog}
    (h : (load genesis log limit).1 = .ok l) : l.Begins g.balances := by
  rw [load_of_empty hg hlog] at h
  cases h
  exact ⟨rfl, rfl⟩

/-- The log holds these blocks, and the state is what has become of the first one by them. -/
structure Built (b : Balances) (bs : List Block) (l : Ledger L) : Prop where
  chained : Chained l (bs.map Record.ofBlock)
  state : bs.foldlM Snapshot.extend (.ofBalances b) = .ok l.snapshot

variable {b : Balances} {bs : List Block} {l m : Ledger L}

theorem Begins.built (h : Begins b l) : Built b [] l where
  chained := ⟨h.log, .nil, by rw [h.state]; rfl, by rw [h.state]; rfl⟩
  state := by rw [h.state]; rfl

theorem Built.bounded {L : Type} [LawfulLog L] {l : Ledger L} (h : Built b bs l)
    (limit : SizeLimit) : Built b bs (l.bounded limit) where
  chained := by simpa using h.chained.step (.limited l limit)
  state := h.state

theorem Built.addBlock_ok {c : Block} {d : Digest} (h : Built b bs l)
    (hadd : l.addBlock c = (.ok d, m)) : Built b (bs ++ [c]) m := by
  rcases l.addBlock_cases c with ⟨s, log, happly, happend, ha⟩ | ⟨e, log, -, ha⟩ | ⟨e, -, ha⟩ <;>
    cases ha.symm.trans hadd
  refine ⟨by simpa using h.chained.step (.committed happly happend), ?_⟩
  rw [List.foldlM_append, h.state]
  simp [bind, Except.bind, Snapshot.extend, happly, Except.map, pure, Except.pure]

theorem Built.addBlock_error {c : Block} {f : LedgerFault} (h : Built b bs l)
    (hadd : l.addBlock c = (.error f, m)) : Built b bs m := by
  rwa [eq_of_addBlock_error hadd]

theorem Built.serve {q : Request} (h : Built b bs l) (hq : q.addsBlocks = true) :
    Built b (bs ++ committedBlocks q (l.serve q).1) (l.serve q).2 := by
  cases q with
  | addBlocks cs => exact addBlocks_induction (P := Built b) .addBlock_ok .addBlock_error cs bs h
  | call c =>
    cases c with
    | addBlock c =>
      rcases hadd : l.addBlock c with ⟨e | d, m⟩
      · rw [serve_addBlock hadd]
        simpa [committedBlocks] using h.addBlock_error hadd
      · rw [serve_addBlock hadd]
        exact h.addBlock_ok hadd
    | _ => cases hq

theorem Built.run {es : List Event} (h : Built b bs l)
    (hes : ∀ e ∈ es, e.request.addsBlocks = true) :
    Built b (bs ++ (l.run es).1.blocks) (l.run es).2 := by
  induction es generalizing l bs with
  | nil => simpa [Ledger.run, History.blocks] using h
  | cons e es ih =>
    obtain ⟨he, hes⟩ := List.forall_mem_cons.mp hes
    simpa [Ledger.run, History.blocks] using ih ((h.bounded e.limit).serve he) hes

theorem Built.records_eq (h : Built b bs l) :
    BlockLog.records l.log = .ok (bs.map Record.ofBlock) :=
  LawfulLog.records_eq h.chained.holds

/-- What has extended a state once extends it again. -/
theorem Built.extends {M : Type} [LawfulLog M] {m : Ledger M} {new : List Block}
    (h : Built b (bs ++ new) l) (hm : Built b bs m) :
    new.foldlM Snapshot.extend m.snapshot = .ok l.snapshot := by
  have hstate := h.state
  rw [List.foldlM_append, hm.state] at hstate
  exact hstate

/-- Asked for what stands behind the tip of a ledger that lags behind, it gives what that lacks. -/
theorem Built.recordsAfter_tip {M : Type} [LawfulLog M] {m : Ledger M} {new : List Block}
    (h : Built b (bs ++ new) l) (hm : Built b bs m)
    (happart : Record.AreToldApart ((bs ++ new).map Record.ofBlock)) :
    l.recordsAfter m.snapshot.tip = .ok (new.map Record.ofBlock) := by
  have hchain := h.chained.chain
  rw [List.map_append] at hchain happart
  rw [recordsAfter, h.records_eq, hm.chained.tip, List.map_append, Except.map,
    hchain.after_lastDigest happart]

end lawful

section growing

variable [GrowingLog L] {b : Balances} {bs : List Block} {l : Ledger L}

theorem addBlock_of_extend {c : Block} {s : Snapshot} (hroom : l.bounded none = l)
    (h : l.snapshot.extend c = .ok s) :
    ∃ m, l.addBlock c = (.ok c.digest, m) ∧ m.snapshot = s ∧ m.bounded none = m := by
  obtain ⟨log, happend, hlog⟩ := GrowingLog.append_unbounded l.log (.ofBlock c)
  have hunbounded : BoundedLog.bounded l.log none = l.log := congrArg Ledger.log hroom
  rw [hunbounded] at happend
  cases happly : l.snapshot.applyBlock c with
  | error e => simp [Snapshot.extend, happly, Except.map] at h
  | ok t =>
    obtain rfl : t.advance c.digest c.header.height = s := by
      simpa [Snapshot.extend, happly, Except.map] using h
    refine ⟨⟨t.advance c.digest c.header.height, l.pending, log⟩, ?_, rfl, ?_⟩
    · simp only [addBlock_eq, happly, promote, happend]
      rfl
    · rw [bounded, hlog]

/-- Blocks that extend the state are all added. -/
theorem Built.addBlocksFrom {new : List Block} {s : Snapshot} (h : Built b bs l)
    (hroom : l.bounded none = l) (hnew : new.foldlM Snapshot.extend l.snapshot = .ok s) (n : Nat) :
    ∃ m, l.addBlocksFrom n new = (.ok (n + new.length), m) ∧ Built b (bs ++ new) m ∧
      m.snapshot = s := by
  induction new generalizing l bs n with
  | nil =>
    cases hnew
    exact ⟨l, rfl, by simpa using h, rfl⟩
  | cons c new ih =>
    cases hextend : l.snapshot.extend c with
    | error e =>
      rw [List.foldlM_cons, hextend] at hnew
      cases hnew
    | ok t =>
      rw [Snapshot.foldlM_extend_cons hextend] at hnew
      obtain ⟨u, hadd, rfl, hroom'⟩ := addBlock_of_extend hroom hextend
      obtain ⟨m, hm, hbuilt, hstate⟩ := ih (h.addBlock_ok hadd) hroom' hnew (n + 1)
      refine ⟨m, ?_, by simpa using hbuilt, hstate⟩
      rw [Ledger.addBlocksFrom, hadd]
      simp [hm, Nat.add_assoc, Nat.add_comm 1]

/-- A ledger that begins takes a batch of blocks that extend its state. -/
theorem Begins.blocks_run {s : Snapshot} (h : Begins b l) (hroom : l.bounded none = l)
    (hbs : bs.foldlM Snapshot.extend (.ofBalances b) = .ok s) :
    (l.run [⟨.addBlocks bs, none⟩]).1.blocks = bs := by
  obtain ⟨m, hadd, -, -⟩ := h.built.addBlocksFrom hroom (h.state ▸ hbs) 0
  simp [run, History.blocks, hroom, serve, addBlocks, hadd, committedBlocks]

/-- Then it is built of these blocks. -/
theorem Begins.built_run {s : Snapshot} (h : Begins b l) (hroom : l.bounded none = l)
    (hbs : bs.foldlM Snapshot.extend (.ofBalances b) = .ok s) :
    Built b bs (l.run [⟨.addBlocks bs, none⟩]).2 ∧
      (l.run [⟨.addBlocks bs, none⟩]).2.snapshot = s := by
  have hadds : ∀ e ∈ [(⟨.addBlocks bs, none⟩ : Event)], e.request.addsBlocks = true := by
    simp [Request.addsBlocks]
  have hbuilt := h.built.run hadds
  rw [List.nil_append, h.blocks_run hroom hbs] at hbuilt
  exact ⟨hbuilt, Except.ok.inj (hbuilt.state.symm.trans hbs)⟩

end growing

/-- Two ledgers begin with the same balances and take whole blocks only.  If the blocks of one are the
first of the other's, and digests tell the latter's blocks apart, then the one that lags behind asks
for what stands behind its tip, adds the blocks that it gets, all of them, and is where the other one
is. -/
theorem addBlocks_recordsAfter {L M : Type} [LawfulLog L] [GrowingLog M] {b : Balances}
    {l : Ledger L} {m : Ledger M} (hl : l.Begins b) (hm : m.Begins b) {es fs : List Event}
    (hes : ∀ e ∈ es, e.request.addsBlocks = true) (hfs : ∀ e ∈ fs, e.request.addsBlocks = true) :
    let ahead := (l.run es).2
    let lagging := (m.run fs).2
    ∃ rs ss, BlockLog.records ahead.log = .ok rs ∧ BlockLog.records lagging.log = .ok ss ∧
      (ss <+: rs → Record.AreToldApart rs →
        ∃ fetched caught, ahead.recordsAfter lagging.snapshot.tip = .ok fetched ∧
          (lagging.bounded none).addBlocks (fetched.map (·.block)) = (.ok fetched.length, caught) ∧
          lagging.snapshot.height + UInt64.ofNat fetched.length = ahead.snapshot.height ∧
          (rs.length < 2 ^ 64 →
            lagging.snapshot.height.toNat + fetched.length = ahead.snapshot.height.toNat) ∧
          caught.snapshot = ahead.snapshot ∧ BlockLog.records caught.log = .ok rs) := by
  intro ahead lagging
  have hahead : Built b ([] ++ (l.run es).1.blocks) ahead := hl.built.run hes
  have hlagging : Built b ([] ++ (m.run fs).1.blocks) lagging := hm.built.run hfs
  rw [List.nil_append] at hahead hlagging
  generalize (l.run es).1.blocks = as at hahead
  generalize (m.run fs).1.blocks = bs at hlagging
  refine ⟨_, _, hahead.records_eq, hlagging.records_eq, fun hprefix happart => ?_⟩
  obtain ⟨new, rfl⟩ : ∃ new, as = bs ++ new := by
    obtain ⟨tail, htail⟩ := hprefix
    obtain ⟨cs, new, rfl, hcs, -⟩ := List.map_eq_append_iff.mp htail.symm
    have hblocks : cs = bs := by
      simpa [Function.comp_def, Record.ofBlock] using congrArg (List.map (·.block)) hcs
    exact ⟨new, by rw [hblocks]⟩
  have hextends := hahead.extends hlagging
  have hroom : (lagging.bounded none).bounded none = lagging.bounded none :=
    congrArg (fun log => { lagging with log }) (GrowingLog.bounded_bounded lagging.log none none)
  obtain ⟨caught, hadd, hcaught, hstate⟩ :=
    (hlagging.bounded none).addBlocksFrom hroom hextends 0
  have hnew : (new.map Record.ofBlock).map (·.block) = new := by
    simp [Function.comp_def, Record.ofBlock]
  refine ⟨_, caught, hahead.recordsAfter_tip hlagging happart, ?_, ?_, ?_, hstate,
    hcaught.records_eq⟩
  · rw [hnew, List.length_map, addBlocks, hadd, Nat.zero_add]
  · rw [hahead.chained.height, hlagging.chained.height]
    simp
  · intro hlength
    rw [hahead.chained.height, hlagging.chained.height]
    simp at hlength ⊢
    omega

/-- The block behind the sample block. -/
def nextBlock : Block := ⟨⟨sampleBlock.digest, 2, 0, 0⟩, []⟩

def oneBlock : List Event := [⟨.addBlocks [sampleBlock], none⟩]

def bothBlocks : List Event := [⟨.addBlocks [sampleBlock, nextBlock], none⟩]

theorem areToldApart_bothBlocks :
    Record.AreToldApart ([sampleBlock, nextBlock].map Record.ofBlock) := by
  have hdigests : sampleBlock.digest ≠ .zero ∧ nextBlock.digest ≠ .zero ∧
      sampleBlock.digest ≠ nextBlock.digest := by
    decide +kernel
  obtain ⟨hfirst, hnext, hne⟩ := hdigests
  have hcases {r : Record} (hr : r ∈ [sampleBlock, nextBlock].map Record.ofBlock) :
      r.block = sampleBlock ∨ r.block = nextBlock := by
    obtain ⟨c, hc, rfl⟩ := List.mem_map.mp hr
    exact (List.mem_cons.mp hc).imp_right List.mem_singleton.mp
  constructor
  · intro r s hr hs hdigest
    rcases hcases hr with hr | hr <;> rcases hcases hs with hs | hs <;> rw [hr, hs] at hdigest ⊢
    · exact absurd hdigest hne
    · exact absurd hdigest.symm hne
  · intro r hr
    rcases hcases hr with hr | hr <;> rw [hr]
    · exact hfirst
    · exact hnext

theorem extend_sampleBlock :
    (Snapshot.ofBalances .empty).extend sampleBlock = .ok ⟨.empty, sampleBlock.digest, 1⟩ := rfl

theorem extend_nextBlock : (Snapshot.mk .empty sampleBlock.digest 1).extend nextBlock =
    .ok ⟨.empty, nextBlock.digest, 2⟩ := by
  have hlink : (Snapshot.mk .empty sampleBlock.digest 1).linkFault? nextBlock = none := by
    exact Snapshot.linkFault?_eq_none_iff.mpr ⟨rfl, rfl⟩
  have happly : (Snapshot.mk .empty sampleBlock.digest 1).applyBlock nextBlock =
      .ok ⟨.empty, sampleBlock.digest, 1⟩ := by
    rw [Snapshot.applyBlock, hlink]
    rfl
  rw [Snapshot.extend, happly]
  rfl

theorem extends_oneBlock : [sampleBlock].foldlM Snapshot.extend (.ofBalances .empty) =
    .ok ⟨.empty, sampleBlock.digest, 1⟩ :=
  Snapshot.foldlM_extend_cons extend_sampleBlock []

theorem extends_bothBlocks : [sampleBlock, nextBlock].foldlM Snapshot.extend (.ofBalances .empty) =
    .ok ⟨.empty, nextBlock.digest, 2⟩ :=
  (Snapshot.foldlM_extend_cons extend_sampleBlock _).trans
    (Snapshot.foldlM_extend_cons extend_nextBlock [])

/-- A ledger in memory with the first of two blocks asks one with a file for the other. -/
theorem addBlocks_recordsAfter_nextBlock :
    ∃ l : Ledger FileLog,
      (load (Genesis.fileOf "sample" .empty) .absent none).1 = .ok l ∧
      BlockLog.records ((inMemory .empty).run oneBlock).2.log = .ok [.ofBlock sampleBlock] ∧
      ∃ fetched caught,
        (l.run bothBlocks).2.recordsAfter ((inMemory .empty).run oneBlock).2.snapshot.tip =
          .ok fetched ∧
        (((inMemory .empty).run oneBlock).2.bounded none).addBlocks (fetched.map (·.block)) =
          (.ok fetched.length, caught) ∧
        caught.snapshot = (l.run bothBlocks).2.snapshot ∧
        BlockLog.records caught.log = .ok [.ofBlock sampleBlock, .ofBlock nextBlock] := by
  have hg := Genesis.ofFile_fileOf "sample" .empty
  have hload : (load (Genesis.fileOf "sample" .empty) .absent none).1 =
      .ok (ofParts (.ofBalances .empty) ⟨[], none⟩) :=
    congrArg Prod.fst (load_of_empty hg (Or.inl rfl) none)
  have hfile : (ofParts (.ofBalances .empty) (FileLog.mk [] none)).Begins .empty :=
    begins_load hg (Or.inl rfl) hload
  have hmemory := begins_inMemory .empty
  have hone : ∀ e ∈ oneBlock, e.request.addsBlocks = true := by decide
  have hboth : ∀ e ∈ bothBlocks, e.request.addsBlocks = true := by decide
  obtain ⟨rs, ss, hrs, hss, h⟩ := addBlocks_recordsAfter hfile hmemory hboth hone
  have hblocks : ((ofParts (.ofBalances .empty) (FileLog.mk [] none)).run bothBlocks).1.blocks =
      [sampleBlock, nextBlock] :=
    hfile.blocks_run rfl extends_bothBlocks
  have hblock : ((inMemory .empty).run oneBlock).1.blocks = [sampleBlock] :=
    hmemory.blocks_run rfl extends_oneBlock
  have hrecords := (hfile.built.run hboth).records_eq
  have hrecord := (hmemory.built.run hone).records_eq
  rw [List.nil_append, hblocks] at hrecords
  rw [List.nil_append, hblock] at hrecord
  obtain rfl := Except.ok.inj (hrs.symm.trans hrecords)
  obtain rfl := Except.ok.inj (hss.symm.trans hrecord)
  obtain ⟨fetched, caught, hfetched, hcaught, -, -, hstate, hend⟩ :=
    h ⟨[.ofBlock nextBlock], rfl⟩ areToldApart_bothBlocks
  refine ⟨_, hload, hrecord, fetched, caught, hfetched, hcaught, ?_, hend⟩
  rw [hstate]

end Ledger
end LedgerNode
