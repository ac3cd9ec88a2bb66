import LedgerNode.Genesis
import LedgerNode.Proofs.Block.Codec
import LedgerNode.Proofs.SortedMap

/-!
Genesis files: whatever the balances are, there is a genesis file that gives them.
-/
namespace LedgerNode

open Json

namespace Balances

def toJson (b : Balances) : Value :=
  .object (b.entries.map fun e => (e.1.text, .ofUInt64 e.2))

theorem entries_ofValues (o : Origin) (es : List (Account × UInt64)) :
    Decoder.entries Account.parseJson Decoder.uint64 o
      (Members.ofValues (es.map fun e => (e.1.text, .ofUInt64 e.2))) = .ok es := by
  induction es with
  | nil => rfl
  | cons e es ih =>
    rw [List.map_cons, Members.ofValues, Decoder.entries, ih]
    simp [Decoder.keyText, Account.parseJson, (reads_uint64 e.2).2 o, bind, Except.bind, pure,
      Except.pure]

theorem reads (b : Balances) : Reads Balances.decoder b.toJson b := by
  have hwords : ∀ es : List (Account × UInt64),
      MembersHaveWords (es.map fun e => (e.1.text, .ofUInt64 e.2)) := by
    intro es
    induction es with
    | nil => trivial
    | cons e es ih => exact ⟨(reads_uint64 e.2).1, ih⟩
  have h : Reads (Decoder.assoc Account.parseJson Decoder.uint64) b.toJson b.entries :=
    ⟨hwords b.entries, fun o => entries_ofValues o b.entries⟩
  simpa [decoder] using h.map SortedMap.ofList

end Balances

namespace Genesis

/-- A genesis file for a chain that began with the year 2024. -/
def fileOf (chainId : String) (b : Balances) : FileEntry :=
  .file (Value.object [("genesis_time", .text "2024-01-01T00:00:00Z"), ("chain_id", .text chainId),
    ("balances", b.toJson)]).render

theorem ofFile_fileOf (chainId : String) (b : Balances) :
    ofFile (fileOf chainId b) = .ok ⟨⟨⟨2024, 1, 1⟩, 0, 0, 0, 0⟩, chainId, b⟩ := by
  have htime : parseTime "2024-01-01T00:00:00Z" = .ok ⟨⟨2024, 1, 1⟩, 0, 0, 0, 0⟩ := by
    have h : Time.Instant.ofText? "2024-01-01T00:00:00Z" = some ⟨⟨2024, 1, 1⟩, 0, 0, 0, 0⟩ := by
      decide
    rw [parseTime, h]
  have h : Fields.Written fields _ (⟨⟨2024, 1, 1⟩, 0, 0, 0, 0⟩, chainId, b, ()) :=
    .field (reads_parsed htime) (by simp) <| .field (reads_text chainId) (by simp) <|
    .field b.reads (by simp) .done
  have hdecode := (h.reads.map ofFields).decode
  simp only [ofFile, fileOf, FileEntry.read, decoder, hdecode]
  rfl

end Genesis
end LedgerNode
