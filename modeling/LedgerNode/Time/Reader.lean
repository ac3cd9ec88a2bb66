import LedgerNode.Text.Blank
import LedgerNode.Text.Scan
import LedgerNode.Time.Instant

/-!
Reading an instant: a date, a clock time and the offset of the clock from universal time.  White
space may stand before each part.
-/
namespace LedgerNode.Time

open Text (Scan decimalValue)

def blanks : Scan Unit := modify Text.trimStart

/-- The digits in front, at least one and at most `most`. -/
def digitsUpTo (most : Nat) : Scan (List Char) := do
  let s ← get
  let run := (s.takeWhile Char.isDigit).take most
  if run.isEmpty then failure
  set (s.drop run.length)
  return run

/-- A number of at most `most` digits, behind white space. -/
def number (most : Nat) : Scan Nat := do
  blanks
  return decimalValue (← digitsUpTo most)

/-- With a sign, a year may have any number of digits. -/
def scanYear : Scan Int := do
  blanks
  match (← get).head? with
  | some '-' => Scan.literal '-'; return -(decimalValue (← Scan.many1 Char.isDigit) : Int)
  | some '+' => Scan.literal '+'; return (decimalValue (← Scan.many1 Char.isDigit) : Int)
  | _ => return (decimalValue (← digitsUpTo 4) : Int)

/-- A number behind a separator. -/
def numberAfter (c : Char) (most : Nat) : Scan Nat := do
  blanks
  Scan.literal c
  number most

/-- Up to nine places behind a point, as nanoseconds; more are passed over. -/
def scanFraction : Scan Nat := do
  match ← Scan.optional (Scan.literal '.') with
  | none => return 0
  | some () =>
    let places := (← Scan.many1 Char.isDigit).take 9
    return decimalValue places * Nat.pow 10 (9 - places.length)

/-- The minutes by which a clock is ahead: two digits of hours, two of minutes. -/
def scanClockOffset : Scan Int := do
  let sign ← Scan.char fun c => c == '+' || c == '-' || c == '−'
  let hours ← Scan.exactly Char.isDigit 2
  let _ ← Scan.many fun c => c == ':' || Text.isBlank c
  let m ← Scan.char fun c => '0' ≤ c && c ≤ '5'
  let mm ← Scan.char Char.isDigit
  let minutes : Int := decimalValue hours * 60 + decimalValue [m, mm]
  return if sign == '+' then minutes else -minutes

/-- Universal time by name, or an offset from it. -/
def scanOffset : Scan Int := do
  blanks
  let s ← get
  if (s.take 3).map Char.toLower = ['u', 't', 'c'] then
    set (s.drop 3)
    return 0
  else if s.head?.map Char.toLower = some 'z' then
    set (s.drop 1)
    return 0
  else scanClockOffset

/-- The years that dates are kept for. -/
def admitsYear (year : Int) : Bool := -262143 ≤ year && year ≤ 262142

def scanInstant : Scan Instant := do
  let year ← scanYear
  let month ← numberAfter '-' 2
  let day ← numberAfter '-' 2
  let _ ← Scan.char fun c => c == 't' || c == 'T' || c == ' '
  let hour ← number 2
  let minute ← numberAfter ':' 2
  let second ← numberAfter ':' 2
  let nanosecond ← scanFraction
  let ahead ← scanOffset
  blanks
  let date : Date := ⟨year, month, day⟩
  guard (date.isValid && admitsYear year && decide (hour ≤ 23) && decide (minute ≤ 59) &&
    decide (second ≤ 60) && decide (ahead.natAbs < 1440))
  let instant := (Instant.mk date hour minute second nanosecond).ofLocal ahead
  guard (admitsYear instant.date.year)
  return instant

/-- The instant that the whole text writes, if it writes one. -/
def Instant.ofText? (s : String) : Option Instant := scanInstant.whole s

end LedgerNode.Time
