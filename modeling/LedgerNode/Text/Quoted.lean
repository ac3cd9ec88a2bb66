import LedgerNode.Text.Printable

/-!
Text in quotation marks, as error messages show the text they complain about.
-/
namespace LedgerNode.Text

/-- The code point of a character in braces. -/
def escapeCode (c : Char) : String :=
  "\\u\x7b" ++ String.ofList (Nat.toDigits 16 c.toNat) ++ "\x7d"

/-- A character between two marks `mark`: the mark and the backslash are escaped, and so is what
is not printable. -/
def escapeChar (mark c : Char) : String :=
  if c = '\x00' then "\\0"
  else if c = '\t' then "\\t"
  else if c = '\r' then "\\r"
  else if c = '\n' then "\\n"
  else if c = '\\' ∨ c = mark then String.ofList ['\\', c]
  else if isPrintable c then c.toString
  else escapeCode c

/-- The text in double quotation marks. -/
def quote (s : String) : String :=
  "\"" ++ String.join (s.toList.map (escapeChar (Char.ofNat 34))) ++ "\""

/-- The character in single quotation marks. -/
def quoteChar (c : Char) : String := "'" ++ escapeChar (Char.ofNat 39) c ++ "'"

end LedgerNode.Text
