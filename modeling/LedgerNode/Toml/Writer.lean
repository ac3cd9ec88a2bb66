import LedgerNode.Toml.Quoted

/-!
Writing strings and keys of TOML: in the plainest marks that need no escapes, and with escapes where
no marks will do.
-/
namespace LedgerNode.Toml

/-- The longest run of a character. -/
def longestRun (mark : Char) (cs : List Char) : Nat :=
  (cs.foldl (fun (run, longest) c =>
    if c = mark then (run + 1, max longest (run + 1)) else (0, longest)) (0, 0)).2

/-- What decides how a string can be written. -/
structure Traits where
  hasControl : Bool
  hasBackslash : Bool
  hasLineFeed : Bool
  quotes : Nat
  apostrophes : Nat

def isControl (c : Char) : Bool := c.toNat < 0x20 || c.toNat == 0x7f

def Traits.ofChars (cs : List Char) : Traits where
  hasControl := cs.any fun c => isControl c && c != '\t' && c != '\n'
  hasBackslash := cs.contains backslash
  hasLineFeed := cs.contains '\n'
  quotes := longestRun quoteMark cs
  apostrophes := longestRun apostrophe cs

def hexDigits (n : Nat) : List Char := (Nat.toDigits 16 n).map Char.toUpper

def escapeChar (long : Bool) (c : Char) : List Char :=
  if c = '\x08' then [backslash, 'b']
  else if c = '\t' then [backslash, 't']
  else if c = '\n' then if long then [c] else [backslash, 'n']
  else if c = '\x0c' then [backslash, 'f']
  else if c = '\r' then [backslash, 'r']
  else if c = backslash then [backslash, backslash]
  else if isControl c then
    let digits := hexDigits c.toNat
    [backslash, 'u'] ++ List.replicate (4 - digits.length) '0' ++ digits
  else [c]

/-- The content between quotation marks.  `run` quotation marks stand right before; beyond `most` in
a row they are escaped. -/
def escapeContent (long : Bool) (most : Nat) (run : Nat) : List Char → List Char
  | [] => []
  | c :: rest =>
    if c = quoteMark then
      if most ≤ run then backslash :: c :: escapeContent long most 0 rest
      else c :: escapeContent long most (run + 1) rest
    else escapeChar long c ++ escapeContent long most 0 rest

def writeBasic (cs : List Char) : List Char :=
  quoteMark :: escapeContent false 0 0 cs ++ [quoteMark]

def writeLiteral (cs : List Char) : List Char := apostrophe :: cs ++ [apostrophe]

/-- Behind three marks; a line feed that opens the content would not count, so one goes before it. -/
def writeLong (mark : Char) (hasLineFeed : Bool) (content : List Char) : List Char :=
  let marks := [mark, mark, mark]
  marks ++ (if hasLineFeed then ['\n'] else []) ++ content ++ marks

def writeString (s : String) : String :=
  let cs := s.toList
  let t := Traits.ofChars cs
  String.ofList <|
    if !t.hasControl && !t.hasBackslash && t.quotes == 0 && !t.hasLineFeed then writeBasic cs
    else if !t.hasControl && t.apostrophes == 0 && !t.hasLineFeed then writeLiteral cs
    else if !t.hasControl && !t.hasBackslash && decide (t.quotes ≤ 2) then
      writeLong quoteMark t.hasLineFeed (escapeContent true 2 0 cs)
    else if !t.hasControl && decide (t.apostrophes ≤ 2) then writeLong apostrophe t.hasLineFeed cs
    else if t.hasLineFeed then writeLong quoteMark t.hasLineFeed (escapeContent true 2 0 cs)
    else writeBasic cs

def isBareKey (cs : List Char) : Bool :=
  !cs.isEmpty && cs.all fun c => c.isAlphanum || c == '_' || c == '-'

/-- A key is always on one line. -/
def writeKey (s : String) : String :=
  let cs := s.toList
  let t := Traits.ofChars cs
  String.ofList <|
    if isBareKey cs then cs
    else if !t.hasControl && !t.hasLineFeed && !t.hasBackslash && t.quotes == 0 then writeBasic cs
    else if !t.hasControl && !t.hasLineFeed && t.apostrophes == 0 then writeLiteral cs
    else writeBasic cs

end LedgerNode.Toml
