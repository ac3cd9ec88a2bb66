import LedgerNode.Proofs.Discovery
import LedgerNode.Proofs.Ledger.CatchUp
import LedgerNode.Proofs.Sync

/-!
A node and one peer that is ahead of it.  The node asks for what stands behind its own tip.  If it is on
the chain of the peer, it takes over the rest of that chain.  If it is on another one, the peer does not
know its tip and has nothing to give; a block never leaves a ledger again, so the node stays on its
fork, however tall the peer grows.
-/
namespace LedgerNode

namespace Record

theorem ofBlock_injective : Function.Injective ofBlock := fun _ _ h => congrArg Record.block h

theorem IsChain.heightOf_eq {rs : List Record} (h : IsChain rs) :
    Neighbour.heightOf rs = UInt64.ofNat rs.length := by
  cases h with
  | nil => rfl
  | @snoc rs b _ hheight _ =>
    rw [List.length_append, UInt64.ofNat_add]
    simpa [Neighbour.heightOf, ofBlock] using hheight

theorem after_eq_nil {start : Digest} (hstart : start ≠ .zero) {rs : List Record}
    (h : ∀ r ∈ rs, r.digest ≠ start) : after start rs = [] := by
  induction rs with
  | nil => simp [after]
  | cons r rs ih =>
    obtain ⟨hr, hrs⟩ := List.forall_mem_cons.mp h
    rw [after_cons hstart, if_neg hr, ih hrs]

/-- A chain has nothing behind the end of another one that it does not begin with. -/
theorem IsChain.after_of_not_prefix {rs ss : List Record} (hrs : IsChain rs) (hss : IsChain ss)
    (happart : AreToldApart (rs ++ ss)) (h : ¬ ss <+: rs) : after (lastDigest ss) rs = [] := by
  have hrsub : rs ⊆ rs ++ ss := List.subset_append_left rs ss
  have hssub : ss ⊆ rs ++ ss := List.subset_append_right rs ss
  have hne : ss ≠ [] := fun hnil => h (hnil ▸ List.nil_prefix)
  refine after_eq_nil (hss.lastDigest_ne_zero (happart.mono hssub) hne) fun r hr hdigest => h ?_
  obtain ⟨i, hi⟩ := List.getElem?_of_mem hr
  have htake : rs.take (i + 1) = ss :=
    (hrs.take _).eq_of_lastDigest happart hss (List.Subset.trans (List.take_subset _ _) hrsub) hssub
      (by rw [lastDigest_take_succ hi, hdigest])
  exact htake ▸ List.take_prefix _ _

end Record

namespace Sync

theorem isBetter_asymm {a b : PeerAddress × UInt64} (h : isBetter a b = true) :
    isBetter b a = false := by
  have hswap : (compare b.2 a.2).then (compare a.1 b.1) =
      ((compare a.2 b.2).then (compare b.1 a.1)).swap := by
    rw [Ordering.swap_then, ← Std.OrientedCmp.eq_swap, ← Std.OrientedCmp.eq_swap]
  rw [isBetter, hswap]
  rw [isBetter, beq_iff_eq] at h
  rw [h]
  rfl

theorem better_cases (best : Option (PeerAddress × UInt64)) (e : PeerAddress × UInt64) :
    better best e = some e ∨ better best e = best := by
  cases best with
  | none => exact .inl rfl
  | some b =>
    rw [better]
    split
    · exact .inr rfl
    · exact .inl rfl

theorem mem_of_foldl_better {es : List (PeerAddress × UInt64)}
    {best : Option (PeerAddress × UInt64)} {f : PeerAddress × UInt64}
    (h : es.foldl better best = some f) : f ∈ es ∨ best = some f := by
  induction es generalizing best with
  | nil => exact .inr h
  | cons e es ih =>
    rcases ih h with hf | hf
    · exact .inl (List.mem_cons_of_mem e hf)
    · rcases better_cases best e with hbest | hbest <;> rw [hbest] at hf
      · cases hf
        exact .inl List.mem_cons_self
      · exact .inr hf

@[simp] theorem better_self (e : PeerAddress × UInt64) : better (some e) e = some e :=
  (better_cases (some e) e).elim id id

section best

variable {e : PeerAddress × UInt64} {es : List (PeerAddress × UInt64)}

theorem foldl_better_of_best (h : ∀ f ∈ es, f ≠ e → isBetter e f = true) :
    es.foldl better (some e) = some e := by
  induction es with
  | nil => rfl
  | cons f es ih =>
    obtain ⟨hf, hes⟩ := List.forall_mem_cons.mp h
    have hstays : better (some e) f = some e := by
      by_cases hfe : f = e
      · rw [hfe, better_self]
      · rw [better, if_pos (hf hfe)]
    rw [List.foldl_cons, hstays, ih hes]

/-- The peer that is ahead and better than all others is the one to take blocks from. -/
theorem target?_of_best {height : UInt64} (he : e ∈ es) (hheight : height < e.2)
    (h : ∀ f ∈ es, f ≠ e → isBetter e f = true) : target? height es = some e := by
  have hahead : e ∈ es.filter fun f => height < f.2 :=
    List.mem_filter.mpr ⟨he, by simpa using hheight⟩
  obtain ⟨before, behind, hsplit⟩ := List.append_of_mem hahead
  have hbest : ∀ f ∈ before ++ e :: behind, f ≠ e → isBetter e f = true := fun f hf =>
    h f (List.mem_of_mem_filter (hsplit ▸ hf))
  have htaken : better (before.foldl better none) e = some e := by
    cases hfold : before.foldl better none with
    | none => rfl
    | some f =>
      by_cases hfe : f = e
      · rw [hfe, better_self]
      · have hf : f ∈ before := (mem_of_foldl_better hfold).resolve_right nofun
        rw [better, isBetter_asymm (hbest f (List.mem_append_left _ hf) hfe)]
        rfl
  rw [target?, hsplit, List.foldl_append, List.foldl_cons, htaken]
  exact foldl_better_of_best fun f hf =>
    hbest f (List.mem_append_right _ (List.mem_cons_of_mem e hf))

end best

end Sync

/-- A search in the order of the delays finds out what there is to find out. -/
theorem Discovery.complete_explore (net : Network) (own : Option PeerAddress) (known : Peers) :
    ∃ answered, Complete net own known answered (explore net own known) := by
  obtain ⟨answered, hsteps, hend⟩ :=
    steps_run net (known.size + net.mentions) (start net.delay own known)
  have hbound := length_of_steps hsteps
  refine ⟨answered, complete_of_steps hsteps (hend.elim id fun hlength => ?_)⟩
  exact List.length_eq_zero_iff.mp (by rw [explore]; omega)

/-- The peers that a node asks first. -/
def SyncSettings.peersOf (settings : SyncSettings) (listed : Peers) : Peers :=
  match settings.self with
  | some a => listed.erase a
  | none => listed

namespace Node

variable {M : Type} [BlockLog M] {net : Network} {settings : SyncSettings}

theorem fetch_of_ok (n : Node M) (registry : FileEntry) {a : PeerAddress} {rs : List Record}
    (hrs : net.recordsAfter a n.ledger.snapshot.tip = .ok rs) (report : SyncReport)
    (asked : List (PeerAddress × PeerCall)) :
    Node.fetch { n with registry } net report asked a =
      ⟨report.taking a (n.adopt (rs.map (·.block))).1,
        (rs.map (·.block)).take (addedCount (n.adopt (rs.map (·.block))).1),
        asked ++ [(a, .blocksAfter n.ledger.snapshot.tip)],
        { (n.adopt (rs.map (·.block))).2 with registry }⟩ := by
  simp only [fetch, hrs, adopt_of_registry]

/-- A node that finds a peer ahead of it fetches blocks from there. -/
theorem sync_of_target {n : Node M} {listed : Peers} (hlisted : Registry.list n.registry = .ok listed)
    (hknown : (settings.peersOf listed).isEmpty = false) {e : PeerAddress × UInt64} :
    let d := Discovery.explore net settings.self (settings.peersOf listed)
    Sync.target? n.ledger.snapshot.height d.heights.entries = some e →
    ∃ registry, n.sync settings net = Node.fetch { n with registry } net
      ⟨d.heights.size, d.found.size, 0, none⟩ (d.asked.reverse.map fun a => (a, .status)) e.1 := by
  intro d htarget
  obtain ⟨registry, hremember⟩ := n.remember_eq settings.registryLimit d.found
  have htarget' : Sync.target? (n.remember settings.registryLimit d.found).ledger.snapshot.height
      d.heights.entries = some e := by
    rw [hremember]
    exact htarget
  refine ⟨registry, ?_⟩
  rw [← hremember, sync, hlisted]
  refine (if_neg (ne_true_of_eq_false hknown)).trans ?_
  -- The round binds what it found; only then is the target the thing to split on.
  extract_lets d' report asked n'
  split
  next hnone => cases hnone.symm.trans htarget'
  next hsome =>
    cases hsome.symm.trans htarget'
    rfl

end Node

/-- A peer that answers for a ledger: it reports the tip, and gives the records that the ledger has. -/
structure Neighbour.Serves {L : Type} [BlockLog L] (p : Neighbour) (l : Ledger L) : Prop where
  report : ∃ known, p.report = .ok ⟨l.snapshot.tip, l.snapshot.height, known⟩
  recordsAfter {start : Digest} {rs : List Record} :
    l.recordsAfter start = .ok rs → p.recordsAfter start = .ok rs

/-- A node with this registry knows one peer, which answers for a ledger.  If the peer mentions others,
they are no taller. -/
structure Network.Offers {L : Type} [BlockLog L] (net : Network) (settings : SyncSettings)
    (registry : FileEntry) (a : PeerAddress) (l : Ledger L) : Prop where
  known : ∃ listed, Registry.list registry = .ok listed ∧
    (∀ c, c ∈ settings.peersOf listed ↔ c = a) ∧
    ∀ c, Discovery.Reached net settings.self (settings.peersOf listed) c → c ≠ a →
      Sync.isBetter (a, l.snapshot.height) (c, net.heightAt c) = true
  peer : ∃ p, net.get? a = some p ∧ p.Serves l

/-- A peer that holds the records of a ledger answers for it. -/
theorem Neighbour.serves_ofRecords {L : Type} [LawfulLog L] {b : Balances} {bs : List Block}
    {l : Ledger L} (h : l.Built b bs) (known : Peers) :
    (ofRecords (bs.map Record.ofBlock) known).Serves l where
  report := by
    refine ⟨known, ?_⟩
    rw [h.chained.tip, h.chained.height, ← h.chained.chain.heightOf_eq]
    rfl
  recordsAfter {start rs} hrs := by
    rw [Ledger.recordsAfter, h.records_eq] at hrs
    cases hrs
    rfl

namespace Network.Offers

variable {L M : Type} [BlockLog L] [BlockLog M] {net : Network} {settings : SyncSettings}
  {registry : FileEntry} {a : PeerAddress} {l : Ledger L}

theorem heightAt_eq (h : net.Offers settings registry a l) : net.heightAt a = l.snapshot.height := by
  obtain ⟨p, hp, ⟨known, hreport⟩, -⟩ := h.peer
  simp [heightAt, report, hp, hreport, Except.mapError]

theorem recordsAfter_eq (h : net.Offers settings registry a l) {start : Digest} {rs : List Record}
    (hrs : l.recordsAfter start = .ok rs) : net.recordsAfter a start = .ok rs := by
  obtain ⟨p, hp, hserves⟩ := h.peer
  simp [recordsAfter, hp, hserves.recordsAfter hrs, Except.mapError]

/-- A node that is behind takes over what the peer has behind its tip. -/
theorem sync_eq (h : net.Offers settings registry a l) {m : Ledger M} (pool : Pool)
    (hbehind : m.snapshot.height < l.snapshot.height) {rs : List Record}
    (hrs : l.recordsAfter m.snapshot.tip = .ok rs) :
    let n : Node M := ⟨m, pool, registry⟩
    ∃ registry queried discovered asked,
      n.sync settings net =
        ⟨SyncReport.taking ⟨queried, discovered, 0, none⟩ a (n.adopt (rs.map (·.block))).1,
        (rs.map (·.block)).take (addedCount (n.adopt (rs.map (·.block))).1), asked,
        { (n.adopt (rs.map (·.block))).2 with registry }⟩ := by
  intro n
  obtain ⟨listed, hlisted, hknown, hworse⟩ := h.known
  have ha : a ∈ settings.peersOf listed := (hknown a).mpr rfl
  obtain ⟨answered, hcomplete⟩ :=
    Discovery.complete_explore net settings.self (settings.peersOf listed)
  have hentry (e : PeerAddress × UInt64) :
      e ∈ (Discovery.explore net settings.self (settings.peersOf listed)).heights.entries ↔
        Discovery.Reached net settings.self (settings.peersOf listed) e.1 ∧
          e.2 = net.heightAt e.1 := by
    rw [← hcomplete.heights]
    exact (SortedMap.get?_eq_some_iff _).symm
  have htarget : Sync.target? m.snapshot.height
      (Discovery.explore net settings.self (settings.peersOf listed)).heights.entries =
        some (a, l.snapshot.height) := by
    refine Sync.target?_of_best ((hentry _).mpr ⟨.known ha, h.heightAt_eq.symm⟩) hbehind ?_
    rintro ⟨c, height⟩ hc hne
    obtain ⟨hc, hheight : height = net.heightAt c⟩ := (hentry _).mp hc
    subst hheight
    refine hworse c hc ?_
    rintro rfl
    exact hne (by rw [h.heightAt_eq])
  obtain ⟨registry, hsync⟩ :=
    Node.sync_of_target (n := n) hlisted (SortedMap.isEmpty_of_mem ha) htarget
  exact ⟨registry, _, _, _, hsync.trans (n.fetch_of_ok registry (h.recordsAfter_eq hrs) _ _)⟩

end Network.Offers

/-- Of two ledgers, the one with fewer blocks is behind. -/
theorem Ledger.Built.height_lt {L M : Type} [LawfulLog L] [LawfulLog M] {b c : Balances}
    {bs cs : List Block} {l : Ledger L} {m : Ledger M} (hl : l.Built b bs) (hm : m.Built c cs)
    (hlength : bs.length < cs.length) (hlt : cs.length < 2 ^ 64) :
    l.snapshot.height < m.snapshot.height := by
  rw [hl.chained.height, hm.chained.height, UInt64.lt_iff_toNat_lt, UInt64.toNat_ofNat',
    UInt64.toNat_ofNat', List.length_map, List.length_map, Nat.mod_eq_of_lt hlt,
    Nat.mod_eq_of_lt (Nat.lt_trans hlength hlt)]
  exact hlength

namespace Node

section following

variable {L M : Type} [LawfulLog L] {b : Balances} {l : Ledger L} {as bs new : List Block}
  {net : Network} {settings : SyncSettings} {a : PeerAddress}

/-- A node on the chain of the peer takes over the rest of it. -/
theorem sync_of_prefix [GrowingLog M] {m : Ledger M} (pool : Pool) {registry : FileEntry}
    (hl : l.Built b (bs ++ new)) (hm : m.Built b bs) (hroom : m.bounded none = m)
    (hoffers : net.Offers settings registry a l) (hbehind : m.snapshot.height < l.snapshot.height)
    (happart : Record.AreToldApart ((bs ++ new).map Record.ofBlock)) :
    let r := Node.sync ⟨m, pool, registry⟩ settings net
    r.node.ledger.Built b (bs ++ new) ∧ r.node.ledger.snapshot = l.snapshot ∧ r.committed = new ∧
      ∃ queried discovered, r.result = .ok ⟨queried, discovered, new.length, some a⟩ := by
  intro r
  obtain ⟨registry', queried, discovered, asked, hsync⟩ :=
    hoffers.sync_eq pool hbehind (hl.recordsAfter_tip hm happart)
  have hnew : (new.map Record.ofBlock).map (·.block) = new := by
    simp [Function.comp_def, Record.ofBlock]
  obtain ⟨caught, hadd, hbuilt, hstate⟩ := hm.addBlocksFrom hroom (hl.extends hm) 0
  have hadopt := Node.adopt_eq ⟨m, pool, registry⟩ new
  rw [Ledger.addBlocks, hadd, Nat.zero_add] at hadopt
  rw [hnew, hadopt] at hsync
  rw [show r = _ from hsync]
  exact ⟨hbuilt, hstate, List.take_length, queried, discovered, rfl⟩

/-- A node to whom the peer has nothing to give stays as it is. -/
theorem sync_of_nothing [BlockLog M] {m : Ledger M} (pool : Pool) {registry : FileEntry}
    (hoffers : net.Offers settings registry a l) (hbehind : m.snapshot.height < l.snapshot.height)
    (hnothing : l.recordsAfter m.snapshot.tip = .ok []) :
    let r := Node.sync ⟨m, pool, registry⟩ settings net
    r.node.ledger = m ∧ r.node.pool = pool ∧ r.committed = [] ∧
      ∃ queried discovered, r.result = .ok ⟨queried, discovered, 0, some a⟩ := by
  intro r
  obtain ⟨registry', queried, discovered, asked, hsync⟩ := hoffers.sync_eq pool hbehind hnothing
  rw [List.map_nil, adopt_nil] at hsync
  rw [show r = _ from hsync]
  exact ⟨rfl, rfl, rfl, queried, discovered, rfl⟩

/-- To a node on another chain, the peer has nothing to give. -/
theorem recordsAfter_of_fork [LawfulLog M] {m : Ledger M} (hl : l.Built b as) (hm : m.Built b bs)
    (happart : Record.AreToldApart (as.map Record.ofBlock ++ bs.map Record.ofBlock))
    (hfork : ¬ bs <+: as) : l.recordsAfter m.snapshot.tip = .ok [] := by
  have hprefix : ¬ bs.map Record.ofBlock <+: as.map Record.ofBlock := by
    rwa [List.prefix_map_iff_of_injective Record.ofBlock_injective]
  rw [Ledger.recordsAfter, hl.records_eq, hm.chained.tip, Except.map,
    hl.chained.chain.after_of_not_prefix hm.chained.chain happart hprefix]

end following

/-- Two ledgers begin with the same balances and take blocks only.  A node with one of them, and room in
its log, knows one peer, which answers for the other one and is ahead.  If the records of the node are
the first ones of the peer, and digests tell the blocks apart, the node takes over the others and is
where the peer is.  If they are not, nothing happens to its ledger, and nothing tells that it should
have. -/
theorem sync_follows {L M : Type} [GrowingLog L] [GrowingLog M] {b : Balances} {l : Ledger L}
    {m : Ledger M} (hl : l.Begins b) (hm : m.Begins b) {es fs : List Event}
    (hes : ∀ e ∈ es, e.request.addsBlocks = true) (hfs : ∀ e ∈ fs, e.request.addsBlocks = true)
    (pool : Pool) {registry : FileEntry} {net : Network} {settings : SyncSettings} {a : PeerAddress}
    (hoffers : net.Offers settings registry a (l.run es).2)
    (hbehind : (m.run fs).2.snapshot.height < (l.run es).2.snapshot.height) :
    let ahead := (l.run es).2
    let n : Node M := ⟨(m.run fs).2.bounded none, pool, registry⟩
    let r := n.sync settings net
    ∃ rs ss, BlockLog.records ahead.log = .ok rs ∧ BlockLog.records n.ledger.log = .ok ss ∧
      (Record.AreToldApart (rs ++ ss) →
        (ss <+: rs →
          r.node.ledger.snapshot = ahead.snapshot ∧
            BlockLog.records r.node.ledger.log = .ok rs ∧
            r.committed.map Record.ofBlock = rs.drop ss.length ∧
            ∃ queried discovered,
              r.result = .ok ⟨queried, discovered, rs.length - ss.length, some a⟩) ∧
        (¬ ss <+: rs →
          r.node.ledger = n.ledger ∧ r.node.pool = n.pool ∧ r.committed = [] ∧
            ∃ queried discovered, r.result = .ok ⟨queried, discovered, 0, some a⟩)) := by
  intro ahead n r
  have hahead : ahead.Built b ([] ++ (l.run es).1.blocks) := hl.built.run hes
  have hlagging : n.ledger.Built b ([] ++ (m.run fs).1.blocks) := (hm.built.run hfs).bounded none
  rw [List.nil_append] at hahead hlagging
  generalize (l.run es).1.blocks = as at hahead
  generalize (m.run fs).1.blocks = bs at hlagging
  refine ⟨_, _, hahead.records_eq, hlagging.records_eq, fun happart => ⟨?_, fun hfork => ?_⟩⟩
  · rw [List.prefix_map_iff_of_injective Record.ofBlock_injective]
    rintro ⟨new, rfl⟩
    have hroom : n.ledger.bounded none = n.ledger :=
      congrArg (fun log => { (m.run fs).2 with log })
        (GrowingLog.bounded_bounded (m.run fs).2.log none none)
    obtain ⟨hbuilt, hstate, hcommitted, queried, discovered, hresult⟩ :=
      sync_of_prefix pool hahead hlagging hroom hoffers hbehind
        (happart.mono (List.subset_append_left _ _))
    refine ⟨hstate, hbuilt.records_eq, ?_, queried, discovered, ?_⟩
    · rw [hcommitted]
      simp
    · rw [hresult]
      simp
  · rw [List.prefix_map_iff_of_injective Record.ofBlock_injective] at hfork
    exact sync_of_nothing pool hoffers hbehind (recordsAfter_of_fork hahead hlagging happart hfork)

/-- The registry of the sample node lists one peer. -/
theorem keys_sampleNode :
    ∃ listed, Registry.list sampleNode.registry = .ok listed ∧ listed.keys = [⟨"h", 1⟩] := by
  have hkeys : (Registry.list sampleNode.registry).toOption.map (·.keys) = some [⟨"h", 1⟩] := by
    decide +kernel
  cases hlisted : Registry.list sampleNode.registry with
  | error e => simp [hlisted, Except.toOption] at hkeys
  | ok listed => exact ⟨listed, rfl, by simpa [hlisted, Except.toOption] using hkeys⟩

theorem mentionedBy_sampleNetwork (bs : List Block) (c : PeerAddress) :
    (sampleNetwork bs).mentionedBy c = [] := by
  by_cases hc : c = ⟨"h", 1⟩
  · simp [Network.mentionedBy, Network.report, sampleNetwork, SortedMap.ofList, hc,
      Neighbour.ofRecords, Except.mapError, SortedMap.empty]
  · simp [Network.mentionedBy, Network.report, sampleNetwork, SortedMap.ofList, hc]

/-- That peer answers for a ledger whose blocks it has, and mentions nobody. -/
theorem offers_sampleNetwork {L : Type} [LawfulLog L] {b : Balances} {bs : List Block}
    {l : Ledger L} (h : l.Built b bs) :
    (sampleNetwork bs).Offers ⟨none, none⟩ sampleNode.registry ⟨"h", 1⟩ l where
  known := by
    obtain ⟨listed, hlisted, hkeys⟩ := keys_sampleNode
    have hknown : ∀ c, c ∈ listed ↔ c = ⟨"h", 1⟩ := fun c => by
      rw [← SortedMap.mem_keys, hkeys, List.mem_singleton]
    refine ⟨listed, hlisted, hknown, fun c hc hne => absurd ?_ hne⟩
    cases hc with
    | known hc => exact (hknown c).mp hc
    | mentioned _ hmentioned => simp [mentionedBy_sampleNetwork] at hmentioned
  peer := ⟨_, by simp [sampleNetwork, SortedMap.ofList], Neighbour.serves_ofRecords h .empty⟩

/-- A node with the first of two blocks fetches the other one. -/
theorem sync_follows_nextBlock :
    let ahead := ((Ledger.inMemory .empty).run
      [⟨.addBlocks [Ledger.sampleBlock, Ledger.nextBlock], none⟩]).2
    let lagging := ((Ledger.inMemory .empty).run [⟨.addBlocks [Ledger.sampleBlock], none⟩]).2
    let n : Node MemoryLog := ⟨lagging.bounded none, sampleNode.pool, sampleNode.registry⟩
    let r := n.sync ⟨none, none⟩ (sampleNetwork [Ledger.sampleBlock, Ledger.nextBlock])
    r.node.ledger.snapshot = ahead.snapshot ∧
      r.committed.map Record.ofBlock = [Record.ofBlock Ledger.nextBlock] := by
  have hmemory := Ledger.begins_inMemory .empty
  have hone : ∀ e ∈ [(⟨.addBlocks [Ledger.sampleBlock], none⟩ : Event)],
      e.request.addsBlocks = true := by
    decide
  have hboth : ∀ e ∈ [(⟨.addBlocks [Ledger.sampleBlock, Ledger.nextBlock], none⟩ : Event)],
      e.request.addsBlocks = true := by
    decide
  obtain ⟨hahead, -⟩ := hmemory.built_run rfl Ledger.extends_bothBlocks
  obtain ⟨hlagging, -⟩ := hmemory.built_run rfl Ledger.extends_oneBlock
  have hoffers := offers_sampleNetwork hahead
  have hbehind := hlagging.height_lt hahead (by simp) (by simp)
  obtain ⟨rs, ss, hrs, hss, h⟩ :=
    sync_follows hmemory hmemory hboth hone sampleNode.pool hoffers hbehind
  obtain rfl := Except.ok.inj (hrs.symm.trans hahead.records_eq)
  obtain rfl := Except.ok.inj (hss.symm.trans (hlagging.bounded none).records_eq)
  have happart : Record.AreToldApart ([Ledger.sampleBlock, Ledger.nextBlock].map Record.ofBlock ++
      [Ledger.sampleBlock].map Record.ofBlock) :=
    Ledger.areToldApart_bothBlocks.mono (by simp)
  obtain ⟨hstate, -, hcommitted, -⟩ := (h happart).1 ⟨[.ofBlock Ledger.nextBlock], rfl⟩
  constructor
  · rw [hstate]
  · rw [hcommitted]
    rfl

/-- Two blocks beside the sample block; the first one has a reward. -/
def forkBlock : Block := ⟨⟨.zero, 1, 0, 0⟩, [Ledger.sampleReward]⟩

def forkNextBlock : Block := ⟨⟨forkBlock.digest, 2, 0, 0⟩, []⟩

theorem extends_forkBlocks :
    [forkBlock, forkNextBlock].foldlM Snapshot.extend (.ofBalances .empty) =
      .ok ⟨SortedMap.empty.insert Ledger.sampleMiner 5, forkNextBlock.digest, 2⟩ := by
  have hfork : (Snapshot.ofBalances .empty).extend forkBlock =
      .ok ⟨SortedMap.empty.insert Ledger.sampleMiner 5, forkBlock.digest, 1⟩ :=
    rfl
  rw [Snapshot.foldlM_extend_cons hfork]
  refine Snapshot.foldlM_extend_cons ?_ []
  rw [Snapshot.extend, Snapshot.applyBlock_of_extends rfl rfl]
  rfl

/-- Neither of them has the digest of the sample block. -/
theorem digest_ne_sampleBlock :
    forkBlock.digest ≠ Ledger.sampleBlock.digest ∧
      forkNextBlock.digest ≠ Ledger.sampleBlock.digest := by
  decide +kernel

/-- The node has one block, its peer two others.  The node asks the peer, and stays where it is. -/
theorem sync_stays_on_fork :
    let ahead := ((Ledger.inMemory .empty).run [⟨.addBlocks [forkBlock, forkNextBlock], none⟩]).2
    let lagging := ((Ledger.inMemory .empty).run [⟨.addBlocks [Ledger.sampleBlock], none⟩]).2
    let n : Node MemoryLog := ⟨lagging, sampleNode.pool, sampleNode.registry⟩
    let r := n.sync ⟨none, none⟩ (sampleNetwork [forkBlock, forkNextBlock])
    (sampleNetwork [forkBlock, forkNextBlock]).Offers ⟨none, none⟩ n.registry ⟨"h", 1⟩ ahead ∧
      lagging.snapshot.height < ahead.snapshot.height ∧
      r.node.ledger.snapshot.tip ≠ ahead.snapshot.tip ∧
      r.node.ledger.snapshot.height ≠ ahead.snapshot.height ∧
      r.node.ledger.snapshot.balances ≠ ahead.snapshot.balances := by
  have hmemory := Ledger.begins_inMemory .empty
  obtain ⟨hahead, haheadState⟩ := hmemory.built_run rfl extends_forkBlocks
  obtain ⟨hlagging, hlaggingState⟩ := hmemory.built_run rfl Ledger.extends_oneBlock
  have hoffers := offers_sampleNetwork hahead
  have hbehind := hlagging.height_lt hahead (by simp) (by simp)
  have hzero : Ledger.sampleBlock.digest ≠ .zero :=
    Ledger.areToldApart_bothBlocks.digest_ne_zero (r := .ofBlock Ledger.sampleBlock) (by simp)
  have hunknown : ∀ r ∈ [forkBlock, forkNextBlock].map Record.ofBlock,
      r.digest ≠ Ledger.sampleBlock.digest := by
    simpa [Record.ofBlock] using digest_ne_sampleBlock
  obtain ⟨hledger, -⟩ := sync_of_nothing sampleNode.pool hoffers hbehind (by
    rw [hlaggingState, Ledger.recordsAfter, hahead.records_eq, Except.map,
      Record.after_eq_nil hzero hunknown])
  with_reducible refine ⟨hoffers, hbehind, ?_⟩
  rw [hledger, hlaggingState, haheadState]
  exact ⟨digest_ne_sampleBlock.2.symm, by decide, by decide⟩

end Node
end LedgerNode
