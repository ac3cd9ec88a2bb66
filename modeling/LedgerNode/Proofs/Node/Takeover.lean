import LedgerNode.Proofs.Ledger.Height
import LedgerNode.Proofs.Ledger.Prefix
import LedgerNode.Proofs.Node.Following
import LedgerNode.Proofs.Node.Forwarding

/-!
What a node takes over from a peer, whatever the peer answers: the longest run of blocks, from the first
on, that the ledger accepts one after the other.  The digests in the answer count for nothing; those in
the log of the node are its own.
-/
namespace LedgerNode

/-- Two peers that differ in nothing but the digests on the records behind this one. -/
structure Neighbour.Matches (start : Digest) (p q : Neighbour) : Prop where
  report : q.report = p.report
  blocks : (q.recordsAfter start).map (·.map Record.block) =
    (p.recordsAfter start).map (·.map Record.block)
  delay : q.delay = p.delay
  freesSearches : q.freesSearches = p.freesSearches

namespace Network

/-- Networks of the same peers, but for the digests on the records behind this one. -/
def Matches (start : Digest) (net net' : Network) : Prop :=
  List.Forall₂ (fun e e' => e'.1 = e.1 ∧ e.2.Matches start e'.2) net.entries net'.entries

variable {start : Digest} {net net' : Network}

theorem Matches.get?_cases (h : net.Matches start net') (a : PeerAddress) :
    net.get? a = none ∧ net'.get? a = none ∨
      ∃ p q, net.get? a = some p ∧ net'.get? a = some q ∧ p.Matches start q := by
  rw [SortedMap.get?, SortedMap.get?]
  rw [Matches] at h
  generalize net.entries = es, net'.entries = es' at h ⊢
  induction h with
  | nil => exact Or.inl ⟨rfl, rfl⟩
  | @cons e e' es es' hmatch _ ih =>
    rw [SortedMap.lookup_cons, SortedMap.lookup_cons, hmatch.1]
    by_cases ha : a = e.1
    · rw [if_pos ha, if_pos ha]
      exact Or.inr ⟨e.2, e'.2, rfl, rfl, hmatch.2⟩
    · rw [if_neg ha, if_neg ha]
      exact ih

theorem Matches.map_get? {β : Type} {f : Neighbour → β} (h : net.Matches start net')
    (hf : ∀ {p q : Neighbour}, p.Matches start q → f q = f p) (a : PeerAddress) :
    (net'.get? a).map f = (net.get? a).map f := by
  rcases h.get?_cases a with ⟨hnet, hnet'⟩ | ⟨p, q, hnet, hnet', hmatch⟩
  · rw [hnet, hnet']
  · rw [hnet, hnet', Option.map_some, Option.map_some, hf hmatch]

theorem Matches.report_eq (h : net.Matches start net') : net'.report = net.report := by
  funext a
  rw [report, report]
  rcases h.get?_cases a with ⟨hnet, hnet'⟩ | ⟨p, q, hnet, hnet', hmatch⟩
  · rw [hnet, hnet']
  · simp only [hnet, hnet', hmatch.report]

theorem Matches.delay_eq (h : net.Matches start net') : net'.delay = net.delay := by
  funext a
  rw [delay, delay, h.map_get? (·.delay)]

theorem Matches.freesSearches_eq (h : net.Matches start net') :
    net'.freesSearches = net.freesSearches := by
  funext a
  rw [freesSearches, freesSearches, h.map_get? (·.freesSearches)]

theorem Matches.mentions_eq (h : net.Matches start net') : net'.mentions = net.mentions := by
  rw [mentions, mentions, SortedMap.values, SortedMap.values, List.foldl_map, List.foldl_map]
  rw [Matches] at h
  generalize net.entries = es, net'.entries = es', 0 = count at h ⊢
  induction h generalizing count with
  | nil => rfl
  | cons hmatch _ ih => rw [List.foldl_cons, List.foldl_cons, hmatch.2.report, ih]

/-- The answers have the same blocks, or fail in the same way. -/
theorem Matches.blocks_eq (h : net.Matches start net') (a : PeerAddress) :
    (net'.recordsAfter a start).map (·.map Record.block) =
      (net.recordsAfter a start).map (·.map Record.block) := by
  rw [recordsAfter, recordsAfter]
  rcases h.get?_cases a with ⟨hnet, hnet'⟩ | ⟨p, q, hnet, hnet', hmatch⟩
  · rw [hnet, hnet']
  · have hblocks := hmatch.blocks
    simp only [hnet, hnet']
    cases hp : p.recordsAfter start <;> cases hq : q.recordsAfter start <;>
      simp_all [Except.map, Except.mapError]

theorem Matches.explore_eq (h : net.Matches start net') (self : Option PeerAddress) (known : Peers) :
    Discovery.explore net' self known = Discovery.explore net self known := by
  rw [Discovery.explore, Discovery.explore, h.report_eq, h.delay_eq, h.mentions_eq]

end Network

namespace Node

section rounds

variable {L : Type} [BlockLog L] {n : Node L} {settings : SyncSettings} {net net' : Network}

/-- What a peer's blocks make of a node does not depend on the digests that they come with. -/
theorem fetch_of_matches (h : net.Matches n.ledger.snapshot.tip net') (report : SyncReport)
    (asked : List (PeerAddress × PeerCall)) (a : PeerAddress) :
    n.fetch net' report asked a = n.fetch net report asked a := by
  have hblocks := h.blocks_eq a
  rw [fetch, fetch]
  cases hanswer : net.recordsAfter a n.ledger.snapshot.tip with
  | error e =>
    cases hanswer' : net'.recordsAfter a n.ledger.snapshot.tip with
    | error e' =>
      rw [hanswer, hanswer'] at hblocks
      cases hblocks
      rfl
    | ok rs' =>
      rw [hanswer, hanswer'] at hblocks
      cases hblocks
  | ok rs =>
    cases hanswer' : net'.recordsAfter a n.ledger.snapshot.tip with
    | error e' =>
      rw [hanswer, hanswer'] at hblocks
      cases hblocks
    | ok rs' =>
      rw [hanswer, hanswer'] at hblocks
      simp only [Except.ok.inj hblocks]

theorem sync_of_matches (h : net.Matches n.ledger.snapshot.tip net') :
    n.sync settings net' = n.sync settings net := by
  unfold sync
  split
  · rfl
  · extract_lets known d' report' asked' m' d report asked m
    have hd : d' = d := h.explore_eq settings.self known
    have hm : m' = m := by simp only [m', m, hd]
    rw [show report' = report by simp only [report', report, hd],
      show asked' = asked by simp only [asked', asked, hd], hm, hd]
    split
    · rfl
    · obtain ⟨registry, hremember⟩ := n.remember_eq settings.registryLimit d.found
      have hmatch : net.Matches m.ledger.snapshot.tip net' := by
        rw [show m = _ from hremember]
        exact h
      split
      · rfl
      · exact fetch_of_matches hmatch report asked _

/-- The peer that a round has asked for blocks decides what comes of it. -/
theorem sync_of_asked {a : PeerAddress} {start : Digest}
    (h : (a, .blocksAfter start) ∈ (n.sync settings net).asked) :
    start = n.ledger.snapshot.tip ∧ ∃ registry report, ∃ peers : List PeerAddress,
      n.sync settings net =
        Node.fetch { n with registry } net report (peers.map fun b => (b, PeerCall.status)) a := by
  rcases n.sync_cases settings net with
    ⟨result, registry, peers, -, hsync⟩ | ⟨registry, report, b, peers, hsync⟩
  · rw [hsync] at h
    simp at h
  · have hasked : (n.sync settings net).asked = (peers.map fun b => (b, PeerCall.status)) ++
        [(b, .blocksAfter n.ledger.snapshot.tip)] := by
      rw [hsync, fetch]
      cases net.recordsAfter b n.ledger.snapshot.tip <;> rfl
    rw [hasked] at h
    simp only [List.mem_append, List.mem_map, Prod.mk.injEq, reduceCtorEq, and_false, exists_false,
      List.mem_singleton, PeerCall.blocksAfter.injEq, false_or] at h
    obtain ⟨rfl, rfl⟩ := h
    exact ⟨rfl, registry, report, peers, hsync⟩

/-- Where the request fails nothing happens but that. -/
theorem sync_of_fault {a : PeerAddress} {e : PeerError}
    (hasked : (a, .blocksAfter n.ledger.snapshot.tip) ∈ (n.sync settings net).asked)
    (hanswer : net.recordsAfter a n.ledger.snapshot.tip = .error e) :
    (n.sync settings net).result = .error (.peer e) ∧ (n.sync settings net).committed = [] ∧
      ∃ registry, (n.sync settings net).node = { n with registry } := by
  obtain ⟨-, registry, report, peers, hsync⟩ := sync_of_asked hasked
  rw [hsync, fetch]
  simp only [hanswer]
  exact ⟨trivial, trivial, registry, rfl⟩

end rounds

end Node

/-- A batch panics over a block that is left when the ledger has come to the greatest height. -/
theorem Ledger.addBlocks_panics_iff {L : Type} [LawfulLog L] (l : Ledger L) (bs : List Block) :
    (∃ applied, (l.addBlocks bs).1 = .error ⟨applied, .heightOverflow⟩) ↔
      addedCount (l.addBlocks bs).1 < bs.length ∧
        (l.addBlocks bs).2.snapshot.height.toNat = 2 ^ 64 - 1 := by
  rw [← Snapshot.nextHeight?_eq_none_iff]
  rcases h : l.addBlocks bs with ⟨⟨applied, cause⟩ | applied, m⟩
  · rw [← addBlocks_overflow_iff h]
    obtain ⟨-, b, hb, -⟩ := adds_of_addBlocks_error h
    obtain ⟨hlt, -⟩ := List.getElem?_eq_some_iff.mp hb
    simpa [addedCount] using fun _ => hlt
  · obtain ⟨-, rfl⟩ := adds_of_addBlocksFrom_ok h
    simp [addedCount]

namespace Node

/-- Where there is an answer the round takes from it as many blocks as the ledger takes.  It reports
them, unless there is another block and no height for it. -/
theorem sync_of_answer {L : Type} [LawfulLog L] {n : Node L} {settings : SyncSettings} {net : Network}
    {a : PeerAddress} {rs : List Record}
    (hasked : (a, .blocksAfter n.ledger.snapshot.tip) ∈ (n.sync settings net).asked)
    (hanswer : net.recordsAfter a n.ledger.snapshot.tip = .ok rs) :
    let round := n.sync settings net
    ∃ k, n.ledger.TakesFirst (rs.map (·.block)) k round.node.ledger ∧
      round.committed = (rs.map (·.block)).take k ∧
      if k < rs.length ∧ round.node.ledger.snapshot.height.toNat = 2 ^ 64 - 1 then
        round.result = .error .heightOverflow ∧ round.notices = []
      else ∃ report, round.result = .ok report ∧ report.applied = k ∧ report.source = some a ∧
        round.notices = round.committed := by
  intro round
  obtain ⟨-, registry, report, peers, hsync⟩ := sync_of_asked hasked
  rw [fetch_of_ok n registry hanswer, adopt_eq] at hsync
  rw [show round = _ from hsync]
  refine ⟨_, n.ledger.takesFirst_addBlocks _, rfl, ?_⟩
  have hpanics := n.ledger.addBlocks_panics_iff (rs.map (·.block))
  rw [List.length_map] at hpanics
  split
  · rename_i h
    obtain ⟨applied, hpanic⟩ := hpanics.mpr h
    simp only [SyncRound.notices, hpanic, SyncReport.taking, and_self]
  · rename_i h
    have hreport := SyncReport.taking_of_ne
      (fun applied happlied => h (hpanics.mp ⟨applied, happlied⟩)) report a
    simp only [SyncRound.notices, hreport, and_true]
    exact ⟨_, rfl, rfl, rfl⟩

end Node

namespace RunningNode

section networks

variable {L : Type}

/-- The same node in another network. -/
def within (r : RunningNode L) (net : Network) : RunningNode L := { r with network := net }

@[simp] theorem node_within (r : RunningNode L) (net : Network) : (r.within net).node = r.node := rfl

@[simp] theorem mining_within (r : RunningNode L) (net : Network) :
    (r.within net).mining = r.mining := rfl

@[simp] theorem notices_within (r : RunningNode L) (net : Network) :
    (r.within net).notices = r.notices := rfl

@[simp] theorem phase_within (r : RunningNode L) (net : Network) :
    (r.within net).phase = r.phase := rfl

@[simp] theorem elapsed_within (r : RunningNode L) (net : Network) :
    (r.within net).elapsed = r.elapsed := rfl

@[simp] theorem notices_of_within (r : RunningNode L) (net : Network) (notices : Queue Block) :
    { r.within net with notices } = RunningNode.within { r with notices } net := rfl

variable [BlockLog L]

omit [BlockLog L] in
@[simp] theorem outcome?_within (r : RunningNode L) (net : Network) :
    (r.within net).outcome? = r.outcome? := rfl

omit [BlockLog L] in
@[simp] theorem hangUp_within (r : RunningNode L) (net : Network) :
    (r.within net).hangUp = r.hangUp.within net := by
  rw [hangUp, hangUp]
  change (if r.mining.worker.isCrashed = true then _ else _) = _
  split <;> rfl

omit [BlockLog L] in
theorem startAttempt_within (r : RunningNode L) (net : Network) :
    (r.within net).startAttempt = r.startAttempt.within net :=
  hangUp_within { r with mining := _ } net

/-- The mining loop knows nothing of the network. -/
theorem mineStep?_within (r : RunningNode L) (net : Network) :
    (r.within net).mineStep? = r.mineStep?.map (·.within net) := by
  unfold mineStep?
  rw [outcome?_within, node_within, notices_within, phase_within, elapsed_within, mining_within]
  split
  · split
    · rfl
    · split
      · rfl
      · split
        · exact congrArg some (hangUp_within { r with mining := _ } net)
        · split
          · exact congrArg some (startAttempt_within (r.withNode _) net)
          · split
            · rename_i syncTick _ _ _ _ _ _ _ _ _
              exact congrArg some (startAttempt_within
                { r with phase := .running (r.elapsed + r.settings.mineInterval) syncTick } net)
            · rfl
  · rfl

theorem mineSteps_within (limit : Nat) (r : RunningNode L) (net : Network) :
    mineSteps limit (r.within net) = (mineSteps limit r).within net := by
  induction limit generalizing r with
  | zero => rfl
  | succ limit ih =>
    rw [mineSteps, mineSteps, mineStep?_within]
    cases r.mineStep? with
    | none => rfl
    | some u => exact ih u

theorem mine_within (r : RunningNode L) (net : Network) :
    (r.within net).mine = r.mine.within net := mineSteps_within _ r net

theorem sendNotices_within (r : RunningNode L) (net : Network) (bs : List Block) :
    (r.within net).sendNotices bs = ((r.sendNotices bs).1, (r.sendNotices bs).2.within net) := by
  induction bs generalizing r with
  | nil => rfl
  | cons b bs ih =>
    rw [sendNotices, sendNotices]
    simp only [mine_within, notices_within, notices_of_within, ih]
    split
    · split
      · rfl
      · split <;> rfl
    · rfl

variable {r : RunningNode L} {net : Network}

theorem rounded_within (h : r.network.Matches r.node.ledger.snapshot.tip net) :
    (r.within net).rounded = r.rounded.within net := by
  have hround : r.node.sync r.settings.sync net = r.node.sync r.settings.sync r.network :=
    Node.sync_of_matches h
  have hfreed (asked : List (PeerAddress × PeerCall)) :
      areSearchesFreed net asked = areSearchesFreed r.network asked := by
    rw [areSearchesFreed, areSearchesFreed, h.freesSearches_eq]
  have hsync : (r.within net).node.sync (r.within net).settings.sync (r.within net).network =
      r.node.sync r.settings.sync r.network := hround
  simp only [rounded, hsync]
  change (if areSearchesFreed net _ = true then _ else _) =
    RunningNode.within (if areSearchesFreed r.network _ = true then _ else _) net
  rw [hfreed]
  split <;> rfl

theorem sync_within (h : r.network.Matches r.node.ledger.snapshot.tip net) :
    (r.within net).sync = (r.sync.1, r.sync.2.within net) := by
  have hround : (r.within net).node.sync (r.within net).settings.sync (r.within net).network =
      r.node.sync r.settings.sync r.network := Node.sync_of_matches h
  rw [sync_eq, sync_eq, hround, rounded_within h, sendNotices_within]

end networks

section takeover

variable {L : Type}

theorem node_rounded [BlockLog L] (r : RunningNode L) :
    r.rounded.node = (r.node.sync r.settings.sync r.network).node := by
  rw [rounded]
  split <;> rfl

theorem notices_rounded [BlockLog L] (r : RunningNode L) : r.rounded.notices = r.notices := by
  rw [rounded]
  split <;> rfl

theorem Receives.rounded [BlockLog L] {r : RunningNode L} (hr : r.Receives) : r.rounded.Receives := by
  have hphase : r.rounded.phase = r.phase := by
    rw [RunningNode.rounded]
    split <;> rfl
  have halive : r.rounded.mining.worker.isCrashed = r.mining.worker.isCrashed := by
    rw [RunningNode.rounded]
    split
    · exact Worker.isCrashed_release r.mining.worker
    · rfl
  exact ⟨by rw [hphase]; exact hr.running, by rw [halive, hr.alive],
    by rw [notices_rounded]; exact hr.isOpen, by rw [notices_rounded]; exact hr.slots⟩

/-- A loop that goes on receiving hears of what a round tells, behind what waited before. -/
theorem Receives.passes_sync [BlockLog L] {r : RunningNode L} (hr : r.Receives) :
    r.sync.1 = some (r.node.sync r.settings.sync r.network).result ∧
      (r.sync.2.Receives → ∃ heard,
        Passes r.rounded (r.node.sync r.settings.sync r.network).notices heard r.sync.2) := by
  obtain ⟨hsent, hheard⟩ :=
    hr.rounded.sendNotices (r.node.sync r.settings.sync r.network).notices
  rw [sync_eq, if_pos hsent]
  exact ⟨rfl, fun hafter => hheard hafter.alive⟩

theorem Receives.sync_of_room [BlockLog L] {r : RunningNode L} (hr : r.Receives)
    (hroom : r.notices.waiting.length + (r.node.sync r.settings.sync r.network).notices.length ≤
      r.notices.slots) :
    r.sync.2.node = (r.node.sync r.settings.sync r.network).node ∧
      r.sync.2.notices.waiting =
        r.notices.waiting ++ (r.node.sync r.settings.sync r.network).notices := by
  rw [← r.notices_rounded] at hroom
  rw [sync_eq, sendNotices_of_room hr.rounded.isOpen hroom]
  exact ⟨r.node_rounded, by rw [r.notices_rounded]⟩

/-- Where the request for blocks fails nobody is told anything. -/
theorem sync_of_fault [BlockLog L] {r : RunningNode L} {a : PeerAddress} {e : PeerError}
    (hasked : (a, .blocksAfter r.node.ledger.snapshot.tip) ∈
      (r.node.sync r.settings.sync r.network).asked)
    (hanswer : r.network.recordsAfter a r.node.ledger.snapshot.tip = .error e) :
    r.sync = (some (.error (.peer e)), r.rounded) ∧
      ∃ registry, r.rounded.node = { r.node with registry } := by
  obtain ⟨hresult, -, registry, hnode⟩ := Node.sync_of_fault hasked hanswer
  refine ⟨?_, registry, r.node_rounded.trans hnode⟩
  rw [sync_eq, SyncRound.notices, hresult]
  rfl

/-- A round that has chosen a peer leaves the ledger where it gets by adding the blocks of the answer
one after the other, as many as it accepts: so many are reported, their records go behind the log with
the digests that the blocks have, and they go to the mining loop in this order.  A loop that goes on
receiving hears of all of them, behind what waited before, and where its queue has room the round is
over at once.  The digests in the answer have no part in any of this.  Where the request fails, the
ledger, its log and the pool are as before, and nothing is sent.  If the accepted blocks come to the
greatest height and another one follows, the round panics over that: they stay, and nobody is told. -/
theorem sync_takes_longest_prefix [LawfulLog L] (r : RunningNode L) (a : PeerAddress) :
    let tip := r.node.ledger.snapshot.tip
    let round := r.node.sync r.settings.sync r.network
    (a, .blocksAfter tip) ∈ round.asked →
    (∀ rs, r.network.recordsAfter a tip = .ok rs →
      ∃ k, r.node.ledger.TakesFirst (rs.map (·.block)) k round.node.ledger ∧
        round.committed = (rs.map (·.block)).take k ∧
        (if k < rs.length ∧ round.node.ledger.snapshot.height.toNat = 2 ^ 64 - 1 then
          round.result = .error .heightOverflow ∧ round.notices = []
        else ∃ report, round.result = .ok report ∧ report.applied = k ∧ report.source = some a ∧
          round.notices = round.committed) ∧
        Appends r.node.ledger.log (round.committed.map .ofBlock) round.node.ledger.log ∧
        ∀ old, LawfulLog.Holds r.node.ledger.log old →
          BlockLog.records round.node.ledger.log = .ok (old ++ round.committed.map .ofBlock)) ∧
    (∀ e, r.network.recordsAfter a tip = .error e →
      r.sync.1 = some (.error (.peer e)) ∧ r.sync.2.node.ledger = r.node.ledger ∧
        r.sync.2.node.pool = r.node.pool ∧ r.sync.2.notices = r.notices) ∧
    (r.Receives → r.sync.1 = some round.result ∧
      (r.sync.2.Receives → ∃ u heard, u.node = round.node ∧ u.notices = r.notices ∧
        Passes u round.notices heard r.sync.2 ∧
        r.notices.waiting ++ round.notices = heard ++ r.sync.2.notices.waiting) ∧
      (r.notices.waiting.length + round.notices.length ≤ r.notices.slots →
        r.sync.2.node = round.node ∧
          r.sync.2.notices.waiting = r.notices.waiting ++ round.notices)) ∧
    ∀ net, r.network.Matches tip net → r.node.sync r.settings.sync net = round ∧
      (r.within net).sync = (r.sync.1, r.sync.2.within net) := by
  intro tip round hasked
  refine ⟨fun rs hanswer => ?_, fun e hanswer => ?_, fun hr => ?_, fun net hmatch =>
    ⟨Node.sync_of_matches hmatch, sync_within hmatch⟩⟩
  · obtain ⟨k, htakes, hcommitted, hresult⟩ := Node.sync_of_answer hasked hanswer
    have happends : Appends r.node.ledger.log (round.committed.map .ofBlock)
        round.node.ledger.log := by
      rw [show round.committed = _ from hcommitted]
      exact htakes.adds.appends
    exact ⟨k, htakes, hcommitted, hresult, happends,
      fun old hold => LawfulLog.records_eq (happends.holds hold)⟩
  · obtain ⟨hsync, registry, hnode⟩ := sync_of_fault hasked hanswer
    rw [hsync]
    exact ⟨rfl, by rw [hnode], by rw [hnode], r.notices_rounded⟩
  · obtain ⟨hresult, hheard⟩ := hr.passes_sync
    refine ⟨hresult, fun hafter => ?_, hr.sync_of_room⟩
    obtain ⟨heard, hpasses⟩ := hheard hafter
    have hwaiting := hpasses.waiting_eq hafter.alive
    rw [notices_rounded] at hwaiting
    exact ⟨r.rounded, heard, r.node_rounded, r.notices_rounded, hpasses, hwaiting⟩

end takeover

/-- A node whose peer sends one block twice. -/
def repeating : RunningNode MemoryLog :=
  { ofNode Node.sampleNode ⟨Ledger.sampleMiner, ⟨0, by decide⟩, ⟨none, none⟩, 1, 1, fun _ => 0, 0⟩
      (Node.sampleNetwork [Ledger.sampleBlock, Ledger.sampleBlock]) 0 with phase := .running 0 none }

/-- The same peer, but for the digests on its records. -/
def falseNetwork : Network :=
  .ofList [(⟨"h", 1⟩,
    { Neighbour.ofRecords ([Ledger.sampleBlock, Ledger.sampleBlock].map .ofBlock) .empty with
      recordsAfter := fun _ => .ok [⟨.zero, Ledger.sampleBlock⟩, ⟨.zero, Ledger.sampleBlock⟩] })]

theorem asked_repeating : (⟨"h", 1⟩, .blocksAfter repeating.node.ledger.snapshot.tip) ∈
    (repeating.node.sync repeating.settings.sync repeating.network).asked := by
  have hasked : (repeating.node.sync repeating.settings.sync repeating.network).asked =
      [(⟨"h", 1⟩, .status), (⟨"h", 1⟩, .blocksAfter .zero)] := by
    decide +kernel
  rw [hasked]
  exact List.mem_cons_of_mem _ List.mem_cons_self

theorem answer_repeating :
    repeating.network.recordsAfter ⟨"h", 1⟩ repeating.node.ledger.snapshot.tip =
      .ok [.ofBlock Ledger.sampleBlock, .ofBlock Ledger.sampleBlock] := by
  have hget : repeating.network.get? ⟨"h", 1⟩ =
      some (.ofRecords ([Ledger.sampleBlock, Ledger.sampleBlock].map .ofBlock) .empty) := rfl
  simp only [Network.recordsAfter, hget, Neighbour.ofRecords]
  change (Except.ok (Record.after .zero _)).mapError _ = _
  rw [Record.after_zero]
  rfl

theorem receives_repeating : repeating.Receives := ⟨⟨0, none, rfl⟩, rfl, rfl, by decide⟩

theorem matches_falseNetwork :
    repeating.network.Matches repeating.node.ledger.snapshot.tip falseNetwork := by
  have hblocks : (Record.after .zero
      ([Ledger.sampleBlock, Ledger.sampleBlock].map Record.ofBlock)).map Record.block =
        [Ledger.sampleBlock, Ledger.sampleBlock] := by
    rw [Record.after_zero]
    rfl
  exact .cons ⟨rfl, ⟨rfl, (congrArg Except.ok hblocks).symm, rfl, rfl⟩⟩ .nil

/-- Of a block that comes twice the first is taken, and the mining loop is sent it once; false digests
on the records change nothing. -/
theorem sync_takes_longest_prefix_repeating :
    (∃ report, repeating.sync.1 = some (.ok report) ∧ report.applied = 1) ∧
      repeating.sync.2.notices.waiting = [Ledger.sampleBlock] ∧
      Appends repeating.node.ledger.log [.ofBlock Ledger.sampleBlock]
        repeating.sync.2.node.ledger.log ∧
      (repeating.within falseNetwork).sync =
        (repeating.sync.1, repeating.sync.2.within falseNetwork) := by
  obtain ⟨htakes, -, hheard, hfalse⟩ :=
    repeating.sync_takes_longest_prefix ⟨"h", 1⟩ asked_repeating
  obtain ⟨k, -, hcommitted, hresult, happends, -⟩ := htakes _ answer_repeating
  obtain ⟨hsync, -, hroom⟩ := hheard receives_repeating
  have honce : (repeating.node.sync repeating.settings.sync repeating.network).committed =
      [Ledger.sampleBlock] := by
    decide +kernel
  split at hresult
  · rename_i h
    exact absurd h.2 (by decide +kernel)
  obtain ⟨report, hresult, happlied, -, hnotices⟩ := hresult
  obtain ⟨hnode, hwaiting⟩ := hroom (by rw [hnotices, honce]; decide)
  rw [hnotices] at hwaiting
  rw [honce] at hcommitted happends hwaiting
  have hk : k = 1 := by
    have hlength := congrArg List.length hcommitted
    simp only [List.length_take, List.length_map, List.length_cons, List.length_nil] at hlength
    omega
  refine ⟨⟨report, hsync.trans (congrArg some hresult), happlied.trans hk⟩, ?_, ?_,
    (hfalse _ matches_falseNetwork).2⟩
  · rw [hwaiting]
    rfl
  · rw [hnode]
    exact happends

end RunningNode
end LedgerNode
