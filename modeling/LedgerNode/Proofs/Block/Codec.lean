import LedgerNode.Block
import LedgerNode.Proofs.Json.Codec
import LedgerNode.Proofs.Text.Hex

/-!
Transactions, blocks and records are read back from their JSON text.
-/
namespace LedgerNode

open Json

theorem Digest.reads (d : Digest) : Reads Digest.decoder d.toJson d :=
  reads_parsed (by simp [Digest.parseJson])

theorem Account.reads (a : Account) : Reads Account.decoder a.toJson a :=
  reads_parsed (by simp [Account.parseJson])

theorem Reason.reads (r : Reason) : Reads Reason.decoder r.toJson r := by
  refine ⟨trivial, fun o => ?_⟩
  cases r <;> rfl

theorem Transaction.written (tx : Transaction) : Fields.Written Transaction.fields tx.members
    (tx.sender, tx.receiver, tx.value, tx.reason, tx.time, ()) :=
  .field (Account.reads _) (by simp) <| .field (Account.reads _) (by simp) <|
  .field (reads_uint64 _) (by simp) <| .field (Reason.reads _) (by simp) <|
  .field (reads_uint64 _) (by simp) .done

theorem Transaction.reads (tx : Transaction) : Reads Transaction.decoder tx.toJson tx :=
  tx.written.reads.map Transaction.ofFields

theorem BlockHeader.reads (h : BlockHeader) : Reads BlockHeader.decoder h.toJson h := by
  have hw : Fields.Written BlockHeader.fields _ (h.parent, h.height, h.nonce, h.time, ()) :=
    .field (Digest.reads _) (by simp) <| .field (reads_uint64 _) (by simp) <|
    .field (reads_uint32 _) (by simp) <| .field (reads_uint64 _) (by simp) .done
  exact hw.reads.map BlockHeader.ofFields

theorem Block.reads (b : Block) : Reads Block.decoder b.toJson b := by
  have h : Fields.Written Block.fields _ (b.header, b.transactions, ()) :=
    .field b.header.reads (by simp) <|
    .field (reads_list Transaction.reads _) (by simp) .done
  exact h.reads.map Block.ofFields

theorem Record.reads (r : Record) : Reads Record.decoder r.toJson r := by
  have h : Fields.Written Record.fields _ (r.digest, r.block, ()) :=
    .field r.digest.reads (by simp) <| .field r.block.reads (by simp) .done
  exact h.reads.map Record.ofFields

end LedgerNode
