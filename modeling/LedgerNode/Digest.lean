import LedgerNode.Digest.Sha256
import LedgerNode.Text.Hex
import LedgerNode.Text.Quoted

/-!
Digests of thirty-two bytes, the identity of blocks and transactions.  They are written as
sixty-four lower-case hexadecimal digits, and read in either case.
-/
namespace LedgerNode

structure Digest where
  bytes : Bytes
  length_eq : bytes.length = 32
  deriving DecidableEq

/-- Why a text is not a digest. -/
inductive DigestTextError where
  | hex (cause : Hex.Error)
  | length (bytes : Nat)
  deriving DecidableEq, Repr

def DigestTextError.message : DigestTextError → String
  | .hex .oddLength => "invalid hex digest: Odd number of digits"
  | .hex (.badDigit byte position) =>
    "invalid hex digest: Invalid character " ++ Text.quoteChar (Char.ofNat byte.toNat) ++
      " at position " ++ toString position
  | .length n => "digest must be 32 bytes, got " ++ toString n

namespace Digest

/-- The digest before the first block. -/
def zero : Digest := ⟨List.replicate 32 0, by simp⟩

instance : Inhabited Digest := ⟨zero⟩

def isZero (d : Digest) : Bool := d == zero

/-- Digests are ordered as their bytes are, the first byte first. -/
instance : Ord Digest := ⟨compareOn Digest.bytes⟩

instance : Std.TransOrd Digest := inferInstanceAs (Std.TransCmp (compareOn Digest.bytes))

instance : Std.LawfulEqOrd Digest where
  eq_of_compare {a b} h := by
    have : a.bytes = b.bytes := Std.LawfulEqOrd.eq_of_compare h
    cases a; cases b; simp_all

def ofMessage (message : Bytes) : Digest := ⟨Sha256.digest message, Sha256.length_digest message⟩

def toHex (d : Digest) : String := Hex.toText d.bytes

instance : ToString Digest := ⟨toHex⟩

def ofHex (text : String) : Except DigestTextError Digest :=
  match Hex.decode (Text.utf8 text) with
  | .error e => .error (.hex e)
  | .ok bytes => if h : bytes.length = 32 then .ok ⟨bytes, h⟩ else .error (.length bytes.length)

/-- The first four bytes, enough to tell digests apart at a glance. -/
def abbreviation (d : Digest) : String := "Hash(" ++ Hex.toText (d.bytes.take 4) ++ "..)"

end Digest
end LedgerNode
