import LedgerNode.Toml.Quoted
import LedgerNode.Toml.Table
import LedgerNode.Time.Instant

/-!
Numbers, dates and names of TOML.
-/
namespace LedgerNode.Toml

open Text (Scan decimalValue)

def isHexDigit (c : Char) : Bool := (Text.hexValue? c).isSome
def isOctalDigit (c : Char) : Bool := '0' ≤ c && c ≤ '7'
def isBinaryDigit (c : Char) : Bool := c == '0' || c == '1'

/-- Digits, between any two of which one underscore may stand. -/
def takeDigits (isDigit : Char → Bool) : List Char → Option (List Char × List Char)
  | [] => none
  | c :: rest =>
    if isDigit c then
      match rest with
      | '_' :: rest => prepend [c] (takeDigits isDigit rest)
      | d :: rest =>
        if isDigit d then prepend [c] (takeDigits isDigit (d :: rest)) else some ([c], d :: rest)
      | [] => some ([c], [])
    else none

def scanDigits (isDigit : Char → Bool) : Scan (List Char) := takeDigits isDigit

def scanSign : Scan (Option Char) := Scan.optional (Scan.char fun c => c == '+' || c == '-')

/-- A whole number in decimal digits, without needless zeros in front. -/
def scanDecimal : Scan (List Char) := do
  match ← get with
  | '0' :: rest => set rest; return ['0']
  | _ => scanDigits Char.isDigit

/-- A whole number within 64 bits. -/
def integerInRange (n : Int) : Scan Value :=
  if Int64.minValue.toInt ≤ n ∧ n ≤ Int64.maxValue.toInt then return .integer n else failure

def scanInteger : Scan Value := do
  match ← get with
  | '0' :: 'x' :: rest => set rest; based isHexDigit 16
  | '0' :: 'o' :: rest => set rest; based isOctalDigit 8
  | '0' :: 'b' :: rest => set rest; based isBinaryDigit 2
  | _ =>
    let sign ← scanSign
    let n : Int := decimalValue (← scanDecimal)
    integerInRange (if sign = some '-' then -n else n)
where
  based (isDigit : Char → Bool) (base : Nat) : Scan Value := do
    let digits ← scanDigits isDigit
    match Text.valueInBase? base digits with
    | some n => integerInRange n
    | none => failure

def scanExponent : Scan Int := do
  let _ ← Scan.char fun c => c == 'e' || c == 'E'
  let sign ← scanSign
  let n : Int := decimalValue (← scanDigits Char.isDigit)
  return if sign = some '-' then -n else n

/-- Whether a number, its digits with the point moved `exponent` places, rounds to infinity in double
precision. -/
def roundsToInfinity (digits : List Char) (exponent : Int) : Bool :=
  let digits := digits.dropWhile (· == '0')
  let top := (digits.length : Int) + exponent
  if digits.isEmpty ∨ top < 309 then false
  else if 309 < top then true
  else
    let limit := Nat.pow 2 1024 - Nat.pow 2 970
    if 0 ≤ exponent then limit ≤ decimalValue digits * Nat.pow 10 exponent.toNat
    else limit * Nat.pow 10 (-exponent).toNat ≤ decimalValue digits

/-- A number with a fraction or an exponent.  One above all doubles is refused. -/
def scanReal : Scan Value := do
  let sign ← scanSign
  let whole ← scanDecimal
  let fraction ← match ← Scan.optional (Scan.literal '.') with
    | some () => scanDigits Char.isDigit
    | none => pure []
  let exponent ← match ← get with
    | 'e' :: _ | 'E' :: _ => scanExponent
    | _ => if fraction.isEmpty then failure else pure 0
  if sign ≠ some '-' ∧ roundsToInfinity (whole ++ fraction) (exponent - fraction.length) then failure
  return .real

def scanSpecialReal : Scan Value := do
  let _ ← scanSign
  match ← Scan.optional (Scan.word "inf") with
  | some () => return .real
  | none => Scan.word "nan"; return .real

def scanNumberBelow (digits least bound : Nat) : Scan Nat := do
  let n := decimalValue (← Scan.exactly Char.isDigit digits)
  if least ≤ n ∧ n < bound then return n else failure

def scanDate : Scan Unit := do
  let year := decimalValue (← Scan.exactly Char.isDigit 4)
  Scan.literal '-'
  let month ← scanNumberBelow 2 1 13
  Scan.literal '-'
  let _ ← scanNumberBelow 2 1 (Time.daysInMonth year month + 1)

def scanClock : Scan Unit := do
  let _ ← scanNumberBelow 2 0 24
  Scan.literal ':'
  let _ ← scanNumberBelow 2 0 60
  Scan.literal ':'
  let _ ← scanNumberBelow 2 0 61
  let _ ← Scan.optional (do Scan.literal '.'; Scan.many1 Char.isDigit)

def scanClockOffset : Scan Unit := do
  let c ← Scan.char fun c => c == 'Z' || c == 'z' || c == '+' || c == '-'
  if c == '+' || c == '-' then
    let _ ← scanNumberBelow 2 0 24
    Scan.literal ':'
    let _ ← scanNumberBelow 2 0 60

/-- A date, a clock time, or both, the clock with its offset or without. -/
def scanTime : Scan Value := do
  match ← Scan.optional scanDate with
  | some () =>
    let _ ← Scan.optional (do
      let _ ← Scan.char fun c => c == 'T' || c == 't' || c == ' '
      scanClock
      let _ ← Scan.optional scanClockOffset)
    return .time
  | none => scanClock; return .time

/-- A number or a time, whatever the text in front is. -/
def scanNumber : Scan Value :=
  scanTime <|> scanReal <|> scanSpecialReal <|> scanInteger

def scanName : Scan Value := do
  match (← get).head? with
  | some 't' => Scan.word "true"; return .boolean true
  | some 'f' => Scan.word "false"; return .boolean false
  | _ => scanSpecialReal

end LedgerNode.Toml
