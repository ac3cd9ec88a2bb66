import LedgerNode.Text.Digit

/-!
Scanners: each takes something off the front of a text, or fails.
-/
namespace LedgerNode.Text

abbrev Scan := StateT (List Char) Option

namespace Scan

variable {α : Type}

/-- One character of which `accepts` holds. -/
def char (accepts : Char → Bool) : Scan Char := do
  match ← get with
  | c :: rest => if accepts c then set rest; pure c else failure
  | [] => failure

def literal (c : Char) : Scan Unit := do let _ ← char (· == c)

/-- A text, letter by letter. -/
def word (w : String) : Scan Unit := w.toList.forM literal

/-- The characters in front of which `accepts` holds. -/
def many (accepts : Char → Bool) : Scan (List Char) := do
  let s ← get
  set (s.dropWhile accepts)
  return s.takeWhile accepts

def many1 (accepts : Char → Bool) : Scan (List Char) := do
  let run ← many accepts
  if run.isEmpty then failure else return run

/-- So many characters, of all of which `accepts` holds. -/
def exactly (accepts : Char → Bool) : Nat → Scan (List Char)
  | 0 => return []
  | n + 1 => return (← char accepts) :: (← exactly accepts n)

/-- Nothing is taken where the scanner fails. -/
def optional (p : Scan α) : Scan (Option α) := fun s =>
  match p s with
  | some (a, rest) => some (some a, rest)
  | none => some (none, s)

/-- One after another while it succeeds and takes something, at most `limit` times. -/
def repeated (p : Scan α) : (limit : Nat) → Scan (List α)
  | 0 => return []
  | limit + 1 => do
    match ← optional p with
    | some a => return a :: (← repeated p limit)
    | none => return []

/-- What the whole text is. -/
def whole (p : Scan α) (s : String) : Option α :=
  match p s.toList with
  | some (a, []) => some a
  | _ => none

end Scan

end LedgerNode.Text
