import LedgerNode.Transaction

/-!
Blocks: a header that names the block before, and transactions.  A block is identified by the digest
of its JSON text, header and transactions together.
-/
namespace LedgerNode

structure BlockHeader where
  parent : Digest
  height : UInt64
  nonce : UInt32
  time : UInt64
  deriving DecidableEq

namespace BlockHeader

def toJson (h : BlockHeader) : Json.Value :=
  .object [("parent", h.parent.toJson), ("height", .ofUInt64 h.height),
    ("nonce", .ofNat h.nonce.toNat), ("time", .ofUInt64 h.time)]

def fields : Json.Fields (Digest × UInt64 × UInt32 × UInt64 × Unit) :=
  .field "parent" Digest.decoder none <| .field "height" Json.Decoder.uint64 none <|
  .field "nonce" Json.Decoder.uint32 none <| .field "time" Json.Decoder.uint64 none .done

def ofFields : Digest × UInt64 × UInt32 × UInt64 × Unit → BlockHeader
  | (parent, height, nonce, time, ()) => ⟨parent, height, nonce, time⟩

def decoder : Json.Decoder BlockHeader := fields.decoder.map ofFields

end BlockHeader

structure Block where
  header : BlockHeader
  transactions : List Transaction
  deriving DecidableEq

namespace Block

def toJson (b : Block) : Json.Value :=
  .object [("header", b.header.toJson), ("transactions", .array (b.transactions.map (·.toJson)))]

def digest (b : Block) : Digest := .ofJson b.toJson

def transactionIds (b : Block) : List TransactionId := b.transactions.map (·.id)

def fields : Json.Fields (BlockHeader × List Transaction × Unit) :=
  .field "header" BlockHeader.decoder none <|
  .field "transactions" (Json.Decoder.list Transaction.decoder) none .done

def ofFields : BlockHeader × List Transaction × Unit → Block
  | (header, transactions, ()) => ⟨header, transactions⟩

def decoder : Json.Decoder Block := fields.decoder.map ofFields

end Block

/-- A block with the digest it is said to have; one line of the block log. -/
structure Record where
  digest : Digest
  block : Block
  deriving DecidableEq

namespace Record

def ofBlock (b : Block) : Record := ⟨b.digest, b⟩

/-- The digest is that of the block. -/
def isHonest (r : Record) : Bool := r.digest == r.block.digest

def toJson (r : Record) : Json.Value :=
  .object [("hash", r.digest.toJson), ("block", r.block.toJson)]

def fields : Json.Fields (Digest × Block × Unit) :=
  .field "hash" Digest.decoder none <| .field "block" Block.decoder none .done

def ofFields : Digest × Block × Unit → Record
  | (digest, block, ()) => ⟨digest, block⟩

def decoder : Json.Decoder Record := fields.decoder.map ofFields

end Record

/-- A block about to be mined: everything but the nonce. -/
structure Candidate where
  parent : Digest
  height : UInt64
  time : UInt64
  miner : Account
  transactions : List Transaction
  deriving DecidableEq

/-- The text of a block that lacks its nonce: what stands before the nonce, and what behind it. -/
structure Frame where
  front : Bytes
  back : Bytes
  deriving DecidableEq

/-- The text with a nonce in its place. -/
def Frame.text (f : Frame) (nonce : UInt32) : Bytes := f.front ++ (Json.renderNat nonce.toNat ++ f.back)

def Frame.digest (f : Frame) (nonce : UInt32) : Digest := .ofMessage (f.text nonce)

namespace Candidate

def withNonce (c : Candidate) (nonce : UInt32) : Block :=
  ⟨⟨c.parent, c.height, nonce, c.time⟩, c.transactions⟩

open Json in
def frame (c : Candidate) : Frame where
  front := 0x7b :: renderText "header" ++ 0x3a :: 0x7b :: renderText "parent" ++
    0x3a :: c.parent.toJson.render ++ 0x2c :: renderText "height" ++
    0x3a :: (Value.ofUInt64 c.height).render ++ 0x2c :: renderText "nonce" ++ [0x3a]
  back := 0x2c :: renderText "time" ++ 0x3a :: (Value.ofUInt64 c.time).render ++
    0x7d :: 0x2c :: renderText "transactions" ++
    0x3a :: (Value.array (c.transactions.map (·.toJson))).render ++ [0x7d]

/-- A candidate is written once for all its nonces. -/
theorem text_frame (c : Candidate) (nonce : UInt32) :
    c.frame.text nonce = (c.withNonce nonce).toJson.render := by
  simp [frame, Frame.text, withNonce, Block.toJson, BlockHeader.toJson, Json.Value.render,
    Json.renderMembers, Json.Value.ofNat, Json.renderInt]

theorem digest_frame (c : Candidate) (nonce : UInt32) :
    c.frame.digest nonce = (c.withNonce nonce).digest := by
  simp only [Frame.digest, text_frame, Block.digest, Digest.ofJson]

end Candidate

end LedgerNode
