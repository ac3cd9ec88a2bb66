import LedgerNode.Proofs.Block.Codec
import LedgerNode.Wire

/-!
What nodes write for each other and into their logs is read back as it was.  So two transactions, or
two blocks, never share a text, and only a collision of digests can make two of them look like one.
-/
namespace LedgerNode

open Json

/-- Two messages with one digest. -/
def Digest.Collide (m m' : Bytes) : Prop := m ≠ m' ∧ ofMessage m = ofMessage m'

/-- Values that are read back have a digest each, up to collisions. -/
theorem Digest.ofJson_eq_iff {α : Type} {dec : Decoder α} {write : α → Value}
    (h : ∀ a, Reads dec (write a) a) {a b : α} :
    ofJson (write a) = ofJson (write b) ↔
      a = b ∨ Collide (write a).render (write b).render := by
  constructor
  · intro hdigest
    by_cases hab : a = b
    · exact .inl hab
    · exact .inr ⟨mt (render_inj h).mp hab, hdigest⟩
  · rintro (rfl | ⟨-, hdigest⟩)
    · rfl
    · exact hdigest

namespace Wire

theorem BlocksRequest.reads (r : BlocksRequest) : Reads BlocksRequest.decoder r.toJson r := by
  have h : Fields.Written BlocksRequest.fields _ (r.start, ()) :=
    .field r.start.reads (by simp) .done
  exact h.reads.map _

theorem ListedPeer.reads (p : ListedPeer) : Reads ListedPeer.decoder p.toJson p := by
  have h : Fields.Written ListedPeer.fields _ (p.info.name, p.address.ip, p.address.port,
      p.info.isBootstrap, p.info.isActive, ()) :=
    .field (reads_text _) (by simp) <| .field (reads_text _) (by simp) <|
    .field (reads_uint16 _) (by simp) <| .field (reads_boolean _) (by simp) <|
    .field (reads_boolean _) (by simp) .done
  exact h.reads.map ListedPeer.ofFields

theorem Status.reads (s : Status) : Reads Status.decoder s.toJson s := by
  have h : Fields.Written Status.fields _ (s.tip, s.height, s.nodes, ()) :=
    .field s.tip.reads (by simp) <| .field (reads_uint64 _) (by simp) <|
    .field (reads_list ListedPeer.reads _) (by simp) .done
  exact h.reads.map Status.ofFields

theorem Status.reads_enveloped (s : Status) : Reads Status.envelopeDecoder s.enveloped s := by
  have h : Fields.Written Status.envelopeFields _ (s, ()) := .field s.reads (by simp) .done
  exact h.reads.map (·.1)

theorem Balance.reads (b : Balance) : Reads Balance.decoder b.toJson b := by
  have h : Fields.Written Balance.fields _ (b.account, b.value, ()) :=
    .field b.account.reads (by simp) <| .field (reads_uint64 _) (by simp) .done
  exact h.reads.map _

theorem BalanceSheet.reads (b : BalanceSheet) : Reads BalanceSheet.decoder b.toJson b := by
  have h : Fields.Written BalanceSheet.fields _ (b.tip, b.height, b.balances, ()) :=
    .field b.tip.reads (by simp) <| .field (reads_uint64 _) (by simp) <|
    .field (reads_list Balance.reads _) (by simp) .done
  exact h.reads.map _

/-- The fields of the transaction pass through a document that is kept before they are read. -/
theorem IdentifiedTransaction.reads (t : IdentifiedTransaction) :
    Reads IdentifiedTransaction.decoder t.toJson t := by
  have hkeep : ∀ m ∈ t.transaction.members, (Doc.ofValue m.2).keep 126 = .ok () := by
    simp [Transaction.members, Account.toJson, Reason.toJson, Value.ofUInt64, Doc.ofValue, Doc.keep]
  have h : Reads (besideField "hash" Digest.decoder Transaction.fields) t.toJson (t.id, _) :=
    reads_besideField t.id.reads (by simp [Transaction.members]) hkeep t.transaction.written
  exact h.map _

end Wire

/-- Whatever is written is read back as it was: transactions, blocks, the records of a log, and the
requests and answers of nodes, with any names and addresses in them.  So no two transactions, and no two
blocks, have one text; those with one digest are the same, or their texts collide.  A record takes up
one line. -/
theorem decode_render_wire :
    (∀ tx : Transaction, decode Transaction.decoder tx.toJson.render = .ok tx) ∧
    (∀ b : Block, decode Block.decoder b.toJson.render = .ok b) ∧
    (∀ r : Record, decode Record.decoder r.toJson.render = .ok r) ∧
    (∀ r : Wire.BlocksRequest, decode Wire.BlocksRequest.decoder r.toJson.render = .ok r) ∧
    (∀ t : Wire.IdentifiedTransaction,
      decode Wire.IdentifiedTransaction.decoder t.toJson.render = .ok t) ∧
    (∀ b : Wire.BalanceSheet, decode Wire.BalanceSheet.decoder b.toJson.render = .ok b) ∧
    (∀ s : Wire.Status, decode Wire.Status.envelopeDecoder s.enveloped.render = .ok s) ∧
    (∀ tx tx' : Transaction, tx.toJson.render = tx'.toJson.render ↔ tx = tx') ∧
    (∀ b b' : Block, b.toJson.render = b'.toJson.render ↔ b = b') ∧
    (∀ tx tx' : Transaction, tx.id = tx'.id ↔
      tx = tx' ∨ Digest.Collide tx.toJson.render tx'.toJson.render) ∧
    (∀ b b' : Block, b.digest = b'.digest ↔
      b = b' ∨ Digest.Collide b.toJson.render b'.toJson.render) ∧
    ∀ r : Record, (0x0a : UInt8) ∉ r.toJson.render ∧ (0x0d : UInt8) ∉ r.toJson.render :=
  ⟨fun tx => tx.reads.decode, fun b => b.reads.decode, fun r => r.reads.decode,
    fun r => r.reads.decode, fun t => t.reads.decode, fun b => b.reads.decode,
    fun s => s.reads_enveloped.decode, fun _ _ => render_inj Transaction.reads,
    fun _ _ => render_inj Block.reads, fun _ _ => Digest.ofJson_eq_iff Transaction.reads,
    fun _ _ => Digest.ofJson_eq_iff Block.reads,
    fun r => ⟨newline_notMem_render _, fun h => absurd (le_of_mem_render _ _ h) (by decide)⟩⟩

end LedgerNode
