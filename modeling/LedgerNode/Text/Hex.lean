import LedgerNode.Text.Utf8

/-!
Bytes written as hexadecimal digits, two to a byte, the high one first.
Digits of either case are read; lower case is written.
-/
namespace LedgerNode.Hex

/-- The value of a hexadecimal digit. -/
def digitValue? (b : UInt8) : Option UInt8 :=
  if 0x30 ≤ b ∧ b ≤ 0x39 then some (b - 0x30)
  else if 0x61 ≤ b ∧ b ≤ 0x66 then some (b - 0x57)
  else if 0x41 ≤ b ∧ b ≤ 0x46 then some (b - 0x37)
  else none

def isDigit (b : UInt8) : Bool := (digitValue? b).isSome

/-- The lower-case digit of a value below sixteen. -/
def digit (v : UInt8) : UInt8 := if v < 10 then v + 0x30 else v + 0x57

inductive Error where
  | oddLength
  | badDigit (byte : UInt8) (position : Nat)
  deriving DecidableEq, Repr

/-- Reads pairs of digits; `position` is where the text at hand begins. -/
def decodePairs (position : Nat) : Bytes → Except Error Bytes
  | [] => .ok []
  | [_] => .error .oddLength
  | hi :: lo :: rest =>
    match digitValue? hi, digitValue? lo with
    | none, _ => .error (.badDigit hi position)
    | some _, none => .error (.badDigit lo (position + 1))
    | some h, some l => (decodePairs (position + 2) rest).map ((h * 16 + l) :: ·)

/-- An odd number of digits is reported before any bad digit. -/
def decode (text : Bytes) : Except Error Bytes :=
  if text.length % 2 = 1 then .error .oddLength else decodePairs 0 text

def encode : Bytes → Bytes
  | [] => []
  | b :: rest => digit (b / 16) :: digit (b % 16) :: encode rest

/-- The digits of the bytes as text. -/
def toText (b : Bytes) : String := String.ofList ((encode b).map (fun d => Char.ofNat d.toNat))

theorem length_encode (b : Bytes) : (encode b).length = 2 * b.length := by
  induction b with
  | nil => rfl
  | cons _ _ ih => simp [encode, ih]; omega

end LedgerNode.Hex
