import LedgerNode.Text.Blank
import LedgerNode.Text.Utf8

/-!
Lines of a text.  A line feed ends a line, and a carriage return right before it belongs to it.
-/
namespace LedgerNode.Text

/-- Puts a byte before the first line. -/
def consByte (b : UInt8) : List Bytes → List Bytes
  | [] => [[b]]
  | line :: rest => (b :: line) :: rest

/-- What stands before, between and behind the line feeds of a text. -/
def pieces : Bytes → List Bytes
  | [] => [[]]
  | b :: rest => if b = 0x0a then [] :: pieces rest else consByte b (pieces rest)

/-- A line without the carriage return at its end. -/
def dropReturn (line : Bytes) : Bytes :=
  if line.getLast? = some 0x0d then line.dropLast else line

/-- All but the last of the pieces were ended by a line feed. -/
def endLines : List Bytes → List Bytes
  | [] => []
  | [last] => [last]
  | line :: next :: rest => dropReturn line :: endLines (next :: rest)

/-- The lines of a text; behind a last line feed there is one more, which is empty. -/
def lines (s : Bytes) : List Bytes := endLines (pieces s)

theorem pieces_ne_nil (s : Bytes) : pieces s ≠ [] := by
  cases s with
  | nil => simp [pieces]
  | cons b rest =>
    simp only [pieces]
    split
    · simp
    · unfold consByte; split <;> simp

theorem endLines_cons (line : Bytes) {rest : List Bytes} (h : rest ≠ []) :
    endLines (line :: rest) = dropReturn line :: endLines rest := by
  obtain ⟨next, rest, rfl⟩ := List.exists_cons_of_ne_nil h
  rfl

theorem pieces_append_newline {line : Bytes} (h : (0x0a : UInt8) ∉ line) (rest : Bytes) :
    pieces (line ++ 0x0a :: rest) = line :: pieces rest := by
  induction line with
  | nil => simp [pieces]
  | cons b line ih =>
    have hb : b ≠ 0x0a := fun hb => h (by simp [hb])
    have hl : (0x0a : UInt8) ∉ line := fun hl => h (by simp [hl])
    simp [pieces, hb, ih hl, consByte]

/-- A line feed ends a line, whatever follows. -/
theorem lines_append_newline {line : Bytes} (h : (0x0a : UInt8) ∉ line) (rest : Bytes) :
    lines (line ++ 0x0a :: rest) = dropReturn line :: lines rest := by
  rw [lines, pieces_append_newline h, endLines_cons line (pieces_ne_nil rest), lines]

/-- Nothing but white space. -/
def isBlankText (s : String) : Bool := s.toList.all isBlank

end LedgerNode.Text
