import LedgerNode.Text.Scan

/-!
Strings of TOML: basic ones with escapes and literal ones without, each on one line or on several.
-/
namespace LedgerNode.Toml

open Text (Scan)

def quoteMark : Char := Char.ofNat 34
def apostrophe : Char := Char.ofNat 39
def backslash : Char := Char.ofNat 92

def isSpace (c : Char) : Bool := c == ' ' || c == '\t'

/-- What may stand in a string and in a comment; a control character may not. -/
def isShown (c : Char) : Bool := c == '\t' || (' ' ≤ c && c != '\x7f')

/-- The character with the code point that hexadecimal digits write. -/
def charOfHex? (digits : List Char) : Option Char := do
  let n ← Text.valueInBase? 16 digits
  if n.isValidChar then some (Char.ofNat n) else none

def unescape? (c : Char) : Option Char :=
  if c = 'b' then some '\x08'
  else if c = 'f' then some '\x0c'
  else if c = 'n' then some '\n'
  else if c = 'r' then some '\r'
  else if c = 't' then some '\t'
  else if c = quoteMark then some quoteMark
  else if c = backslash then some backslash
  else none

/-- A kind of string: its mark, whether a backslash escapes, and whether it may have several lines,
between marks that stand three together. -/
structure StringKind where
  mark : Char
  escapes : Bool
  isLong : Bool
  deriving DecidableEq

def beginsLine (s : List Char) : Bool :=
  match s with
  | '\n' :: _ => true
  | '\r' :: '\n' :: _ => true
  | _ => false

/-- Puts characters in front of the content of a string. -/
def prepend (cs : List Char) (found : Option (List Char × List Char)) :
    Option (List Char × List Char) :=
  found.map fun (content, rest) => (cs ++ content, rest)

/-- The content of a string from behind its opening mark, and what follows the string.  In a `gap`,
which a backslash at the end of a line begins, white space does not count. -/
def readContent (kind : StringKind) (gap : Bool) : List Char → Option (List Char × List Char)
  | [] => none
  | c :: rest =>
    if c = kind.mark then
      if !kind.isLong then some ([], rest)
      else
        let run := 1 + (rest.takeWhile (· == c)).length
        if run < 3 then prepend [c] (readContent kind false rest)
        else some (List.replicate (min run 5 - 3) c, rest.drop (min run 5 - 1))
    else if kind.escapes && c == backslash then
      match rest with
      | 'u' :: a :: b :: c :: d :: rest =>
        match charOfHex? [a, b, c, d] with
        | some c => prepend [c] (readContent kind false rest)
        | none => none
      | 'U' :: a :: b :: c :: d :: e :: f :: g :: h :: rest =>
        match charOfHex? [a, b, c, d, e, f, g, h] with
        | some c => prepend [c] (readContent kind false rest)
        | none => none
      | e :: rest =>
        if kind.isLong && beginsLine ((e :: rest).dropWhile isSpace) then
          readContent kind true (e :: rest)
        else match unescape? e with
          | some c => prepend [c] (readContent kind false rest)
          | none => none
      | [] => none
    else if kind.isLong && beginsLine (c :: rest) then
      prepend (if gap || c == '\r' then [] else [c]) (readContent kind gap rest)
    else if gap && isSpace c then readContent kind gap rest
    else if isShown c then prepend [c] (readContent kind false rest)
    else none

/-- A line feed right behind the opening marks of a string of several lines does not count. -/
def dropLineBreak : List Char → List Char
  | '\n' :: rest => rest
  | '\r' :: '\n' :: rest => rest
  | s => s

/-- The string between marks of this kind, if there is one here. -/
def readQuoted (mark : Char) (escapes : Bool) (s : List Char) : Option (List Char × List Char) :=
  match s with
  | a :: b :: c :: rest =>
    if a = mark ∧ b = mark ∧ c = mark then
      readContent ⟨mark, escapes, true⟩ false (dropLineBreak rest)
    else if a = mark then readContent ⟨mark, escapes, false⟩ false (b :: c :: rest)
    else none
  | a :: rest => if a = mark then readContent ⟨mark, escapes, false⟩ false rest else none
  | [] => none

def scanQuoted (mark : Char) (escapes : Bool) : Scan String := fun s =>
  (readQuoted mark escapes s).map fun (content, rest) => (String.ofList content, rest)

/-- A string in marks of either kind. -/
def scanString : Scan String := fun s =>
  if s.head? = some quoteMark then scanQuoted quoteMark true s else scanQuoted apostrophe false s

/-- A key in marks is a string on one line. -/
def scanQuotedKey (mark : Char) (escapes : Bool) : Scan String := fun s =>
  match s with
  | [] => none
  | a :: rest =>
    if a = mark then
      (readContent ⟨mark, escapes, false⟩ false rest).map fun (content, rest) =>
        (String.ofList content, rest)
    else none

end LedgerNode.Toml
