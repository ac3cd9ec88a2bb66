import LedgerNode.Api
import LedgerNode.Peer.Call
import LedgerNode.Proofs.SortedMap
import LedgerNode.Proofs.Sync
import LedgerNode.Proofs.Text.Order
import LedgerNode.Proofs.Wire

/-!
What a node serves about its peers and what another node makes of it.  The peers are listed in the order
of their addresses, each once, so the list is that of the map it was made from, and of no other.
-/
namespace LedgerNode

open Json

namespace PeerAddress

/-- By the bytes of the host, and for one host by the port. -/
def Precedes (a b : PeerAddress) : Prop :=
  Text.utf8 a.ip < Text.utf8 b.ip ∨ a.ip = b.ip ∧ a.port < b.port

theorem compare_eq_lt_iff (a b : PeerAddress) : compare a b = .lt ↔ a.Precedes b := by
  have hip : compare a.ip b.ip = .lt ↔ a.ip < b.ip := compareOfLessAndEq_eq_lt
  have hport : compare a.port b.port = .lt ↔ a.port < b.port := compareOfLessAndEq_eq_lt
  rw [compare_eq, Ordering.then_eq_lt, hip, hport, Std.compare_eq_iff_eq, Precedes, Text.utf8_lt_iff]

end PeerAddress

namespace PeerCall

/-- An answer of success is read by everyone whose request goes out. -/
theorem exchange_answered {α : Type} {dec : Decoder α} {body : Bytes} {x : α}
    (h : decode dec body = .ok x) (call : PeerCall) (a : PeerAddress) :
    (exchange dec call a (.answered 200 body)).2 =
      if (call.request? a).isSome then .ok x else .error (.request a false) := by
  have hfailure : Http.isFailure 200 = false := rfl
  have hbodiless : Http.isBodiless 200 = false := rfl
  have hfinal : Http.isFinal 200 = true := rfl
  unfold exchange
  cases call.request? a with
  | none => rfl
  | some request =>
    simp only [Option.isSome_some, if_true, hfinal, readAnswer, hfailure, hbodiless,
      Bool.false_eq_true, if_false, h]

/-- A status that is served is read as the report it was made from. -/
theorem askStatus_answered {body : Bytes} {s : Wire.Status}
    (h : decode Wire.Status.envelopeDecoder body = .ok s) (a : PeerAddress) :
    (askStatus a (.answered 200 body)).2 =
      if (status.request? a).isSome then .ok s.toReport else .error (.request a false) := by
  have hanswer := exchange_answered h status a
  unfold askStatus
  generalize exchange Wire.Status.envelopeDecoder status a (.answered 200 body) = answer at hanswer ⊢
  change answer.2.map Wire.Status.toReport = _
  rw [hanswer]
  generalize (status.request? a).isSome = goesOut
  cases goesOut <;> rfl

end PeerCall

namespace Wire.Status

/-- The status of a node whose peers are met in this order. -/
def listing (tip : Digest) (height : UInt64) (es : List (PeerAddress × PeerInfo)) : Status :=
  ⟨tip, height, (es.map fun e => ⟨e.1, e.2⟩).mergeSort fun p q => (compare p.address q.address).isLE⟩

theorem nodes_ofReport_pairwise (r : PeerReport) :
    (ofReport r).nodes.Pairwise fun p q => p.address.Precedes q.address := by
  refine List.pairwise_map.mpr (r.known.sorted.imp fun h => ?_)
  exact (PeerAddress.compare_eq_lt_iff _ _).mp h

theorem mem_nodes_ofReport {r : PeerReport} {p : ListedPeer} :
    p ∈ (ofReport r).nodes ↔ r.known.get? p.address = some p.info := by
  rw [SortedMap.get?_eq_some_iff, ofReport, List.mem_map]
  constructor
  · rintro ⟨e, he, rfl⟩
    exact he
  · intro h
    exact ⟨_, h, rfl⟩

/-- The list does not tell in which order the peers were met. -/
theorem listing_eq_ofReport {r : PeerReport} {es : List (PeerAddress × PeerInfo)}
    (h : es.Perm r.known.entries) : listing r.tip r.height es = ofReport r := by
  have hperm : (listing r.tip r.height es).nodes.Perm (ofReport r).nodes :=
    (List.mergeSort_perm _ _).trans (h.map _)
  have hsorted : (listing r.tip r.height es).nodes.Pairwise fun p q =>
      (compare p.address q.address).isLE = true :=
    List.pairwise_mergeSort (fun _ _ _ => Std.TransCmp.isLE_trans)
      (fun p q => by
        rw [Std.OrientedOrd.eq_swap (a := q.address)]
        cases compare p.address q.address <;> rfl) _
  have hnodes : (listing r.tip r.height es).nodes = (ofReport r).nodes := by
    refine List.Perm.eq_of_pairwise (fun p q hp hq hpq hqp => ?_) hsorted ?_ hperm
    · have haddress : p.address = q.address :=
        Std.LawfulEqOrd.eq_of_compare (Std.OrientedCmp.isLE_antisymm hpq hqp)
      have hp := mem_nodes_ofReport.mp (hperm.mem_iff.mp hp)
      have hq := mem_nodes_ofReport.mp hq
      rw [haddress, hq] at hp
      cases p
      cases q
      simp_all
    · refine List.pairwise_map.mpr (r.known.sorted.imp fun h => ?_)
      simp [h]
  exact congrArg (Status.mk r.tip r.height) hnodes

/-- Of several peers at one address the last is listed again. -/
theorem mem_nodes_relisted {s : Status} {p : ListedPeer} :
    p ∈ (ofReport s.toReport).nodes ↔
      (s.nodes.filter fun q => q.address = p.address).getLast? = some p := by
  have hfilter : (fun e : PeerAddress × PeerInfo => decide (p.address = e.1)) ∘
      (fun q : ListedPeer => (q.address, q.info)) = fun q => decide (q.address = p.address) :=
    funext fun q => decide_eq_decide.mpr eq_comm
  rw [mem_nodes_ofReport, toReport, SortedMap.get?_ofList, List.filter_map, hfilter,
    List.getLast?_map, Option.map_map]
  cases hlast : (s.nodes.filter fun q => decide (q.address = p.address)).getLast? with
  | none => simp
  | some q =>
    have haddress : q.address = p.address := by
      simpa using (List.mem_filter.mp (List.mem_of_getLast? hlast)).2
    obtain ⟨address, info⟩ := p
    obtain ⟨address', info'⟩ := q
    cases haddress
    simp

theorem toReport_ofReport (r : PeerReport) : (ofReport r).toReport = r := by
  have hentries : (ofReport r).nodes.map (fun p => (p.address, p.info)) = r.known.entries := by
    rw [ofReport, List.map_map]
    exact List.map_id _
  rw [toReport, hentries, SortedMap.ofList_entries]
  rfl

/-- What a node serves about its peers is what another node reads, whatever the names and hosts are.
The list is strictly increasing by the bytes of the host and the port, and the same in whatever order
the peers are met.  Any list, also one that repeats addresses, is listed again with each address once
and what stands last for it. -/
theorem peers_read_as_served :
    (∀ r : PeerReport,
      (∀ es, es.Perm r.known.entries → listing r.tip r.height es = ofReport r) ∧
      ((ofReport r).nodes.Pairwise fun p q => p.address.Precedes q.address) ∧
      (decode envelopeDecoder (ofReport r).enveloped.render).map toReport = .ok r) ∧
    (∀ s : Status, (ofReport s.toReport).tip = s.tip ∧ (ofReport s.toReport).height = s.height ∧
      ((ofReport s.toReport).nodes.Pairwise fun p q => p.address.Precedes q.address) ∧
      ∀ p, p ∈ (ofReport s.toReport).nodes ↔
        (s.nodes.filter fun q => q.address = p.address).getLast? = some p) ∧
    ∀ {L : Type} (n : Node L) (known : Peers), Registry.list n.registry = .ok known →
      ∃ body, Api.nodeStatus n = .ok body ∧
        ∀ a, (PeerCall.askStatus a (.answered 200 body.render)).2 =
          if (PeerCall.status.request? a).isSome then
            .ok ⟨n.ledger.snapshot.tip, n.ledger.snapshot.height, known⟩
          else .error (.request a false) := by
  have hread (r : PeerReport) :
      (decode envelopeDecoder (ofReport r).enveloped.render).map toReport = .ok r := by
    rw [(reads_enveloped _).decode]
    exact congrArg Except.ok (toReport_ofReport r)
  refine ⟨fun r => ⟨fun es => listing_eq_ofReport, nodes_ofReport_pairwise r, hread r⟩,
    fun s => ⟨rfl, rfl, nodes_ofReport_pairwise _, fun p => mem_nodes_relisted⟩, ?_⟩
  intro L n known hknown
  refine ⟨(ofReport ⟨n.ledger.snapshot.tip, n.ledger.snapshot.height, known⟩).enveloped, ?_,
    fun a => ?_⟩
  · rw [Api.nodeStatus, hknown]
  · rw [PeerCall.askStatus_answered (reads_enveloped _).decode, toReport_ofReport]

/-- A report of two peers, which are listed in the order of their hosts. -/
def sampleReport : PeerReport :=
  ⟨.zero, 0, .ofList [(⟨"b", 1⟩, ⟨"first", true, true⟩), (⟨"a", 2⟩, ⟨"second", false, true⟩)]⟩

/-- The peers may be met in the opposite order, and of a peer that is listed twice the second mention
counts.  A node serves what its registry lists. -/
theorem peers_read_as_served_sampleReport :
    listing .zero 0 sampleReport.known.entries.reverse = ofReport sampleReport ∧
      ⟨⟨"h", 1⟩, ⟨"new", true, true⟩⟩ ∈ (ofReport (toReport
        ⟨.zero, 0, [⟨⟨"h", 1⟩, ⟨"old", false, true⟩⟩, ⟨⟨"h", 1⟩, ⟨"new", true, true⟩⟩]⟩)).nodes ∧
      ∃ known body, Registry.list Node.sampleNode.registry = .ok known ∧
        Api.nodeStatus Node.sampleNode = .ok body ∧
        ∀ a, (PeerCall.askStatus a (.answered 200 body.render)).2 =
          if (PeerCall.status.request? a).isSome then .ok ⟨.zero, 0, known⟩
          else .error (.request a false) := by
  obtain ⟨hserved, hrelisted, hnode⟩ := peers_read_as_served
  have hknown : Registry.list Node.sampleNode.registry =
      .ok (.ofList [(⟨"h", 1⟩, ⟨"p", false, false⟩)]) := by
    decide +kernel
  obtain ⟨body, hbody, hread⟩ := hnode Node.sampleNode _ hknown
  refine ⟨(hserved sampleReport).1 _ (List.reverse_perm _), ((hrelisted _).2.2.2 _).mpr rfl,
    _, body, hknown, hbody, hread⟩

end Wire.Status
end LedgerNode
