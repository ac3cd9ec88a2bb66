import LedgerNode.Text.Utf8

/-!
The SHA-256 digest of a message.  The padded message is read as blocks of sixteen words; each block
is stretched to sixty-four words and mixed into a state of eight.
-/
namespace LedgerNode.Sha256

structure State where
  a : UInt32
  b : UInt32
  c : UInt32
  d : UInt32
  e : UInt32
  f : UInt32
  g : UInt32
  h : UInt32

def initial : State :=
  ⟨0x6a09e667, 0xbb67ae85, 0x3c6ef372, 0xa54ff53a, 0x510e527f, 0x9b05688c, 0x1f83d9ab, 0x5be0cd19⟩

def roundConstants : Array UInt32 := #[
  0x428a2f98, 0x71374491, 0xb5c0fbcf, 0xe9b5dba5, 0x3956c25b, 0x59f111f1, 0x923f82a4, 0xab1c5ed5,
  0xd807aa98, 0x12835b01, 0x243185be, 0x550c7dc3, 0x72be5d74, 0x80deb1fe, 0x9bdc06a7, 0xc19bf174,
  0xe49b69c1, 0xefbe4786, 0x0fc19dc6, 0x240ca1cc, 0x2de92c6f, 0x4a7484aa, 0x5cb0a9dc, 0x76f988da,
  0x983e5152, 0xa831c66d, 0xb00327c8, 0xbf597fc7, 0xc6e00bf3, 0xd5a79147, 0x06ca6351, 0x14292967,
  0x27b70a85, 0x2e1b2138, 0x4d2c6dfc, 0x53380d13, 0x650a7354, 0x766a0abb, 0x81c2c92e, 0x92722c85,
  0xa2bfe8a1, 0xa81a664b, 0xc24b8b70, 0xc76c51a3, 0xd192e819, 0xd6990624, 0xf40e3585, 0x106aa070,
  0x19a4c116, 0x1e376c08, 0x2748774c, 0x34b0bcb5, 0x391c0cb3, 0x4ed8aa4a, 0x5b9cca4f, 0x682e6ff3,
  0x748f82ee, 0x78a5636f, 0x84c87814, 0x8cc70208, 0x90befffa, 0xa4506ceb, 0xbef9a3f7, 0xc67178f2]

def rotateRight (x n : UInt32) : UInt32 := (x >>> n) ||| (x <<< (32 - n))

def stretchWord (w : Array UInt32) : UInt32 :=
  let back (n : Nat) : UInt32 := w.getD (w.size - n) 0
  let x := back 15
  let y := back 2
  let s0 := rotateRight x 7 ^^^ rotateRight x 18 ^^^ (x >>> 3)
  let s1 := rotateRight y 17 ^^^ rotateRight y 19 ^^^ (y >>> 10)
  back 16 + s0 + back 7 + s1

/-- The sixty-four words of a block of sixteen. -/
def stretch (block : Array UInt32) : Array UInt32 :=
  Nat.fold 48 (fun _ _ w => w.push (stretchWord w)) block

def round (s : State) (k w : UInt32) : State :=
  let s1 := rotateRight s.e 6 ^^^ rotateRight s.e 11 ^^^ rotateRight s.e 25
  let choice := (s.e &&& s.f) ^^^ ((~~~ s.e) &&& s.g)
  let t1 := s.h + s1 + choice + k + w
  let s0 := rotateRight s.a 2 ^^^ rotateRight s.a 13 ^^^ rotateRight s.a 22
  let majority := (s.a &&& s.b) ^^^ (s.a &&& s.c) ^^^ (s.b &&& s.c)
  ⟨t1 + (s0 + majority), s.a, s.b, s.c, s.d + t1, s.e, s.f, s.g⟩

def add (s t : State) : State :=
  ⟨s.a + t.a, s.b + t.b, s.c + t.c, s.d + t.d, s.e + t.e, s.f + t.f, s.g + t.g, s.h + t.h⟩

/-- Mixes one block of sixteen words into the state. -/
def compress (s : State) (block : Array UInt32) : State :=
  let w := stretch block
  add s (Nat.fold 64 (fun i _ t => round t (roundConstants.getD i 0) (w.getD i 0)) s)

/-- Reads `n` big-endian words behind those read before, and what follows them. -/
def readWords (n : Nat) (w : Array UInt32) (bs : Bytes) : Array UInt32 × Bytes :=
  match n, bs with
  | n + 1, a :: b :: c :: d :: rest =>
    let word := (a.toUInt32 <<< 24) ||| (b.toUInt32 <<< 16) ||| (c.toUInt32 <<< 8) ||| d.toUInt32
    readWords n (w.push word) rest
  | _, bs => (w, bs)

/-- Mixes so many blocks into the state; the bytes behind them are left. -/
def absorb : (blocks : Nat) → State → Bytes → State × Bytes
  | 0, s, bs => (s, bs)
  | n + 1, s, bs =>
    let (block, rest) := readWords 16 (Array.mkEmpty 64) bs
    absorb n (compress s block) rest

def wordBytes (w : UInt32) : Bytes :=
  [(w >>> 24).toUInt8, (w >>> 16).toUInt8, (w >>> 8).toUInt8, w.toUInt8]

/-- A mark, zeros up to a multiple of sixty-four bytes, and the length in bits as the last eight. -/
def padding (length : Nat) : Bytes :=
  let bits := (length * 8).toUInt64
  (0x80 : UInt8) :: List.replicate ((119 - length % 64) % 64) 0 ++
    wordBytes (bits >>> 32).toUInt32 ++ wordBytes bits.toUInt32

def digest (message : Bytes) : Bytes :=
  let (s, rest) := absorb (message.length / 64) initial message
  let tail := rest ++ padding message.length
  let (s, _) := absorb (tail.length / 64) s tail
  [s.a, s.b, s.c, s.d, s.e, s.f, s.g, s.h].flatMap wordBytes

theorem length_digest (message : Bytes) : (digest message).length = 32 := by
  simp [digest, wordBytes]

end LedgerNode.Sha256
