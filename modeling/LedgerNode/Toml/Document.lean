import LedgerNode.Toml.Scalar

/-!
Reading a TOML document: lines that give keys their values, and headers that say in which table.
-/
namespace LedgerNode.Toml

open Text (Scan)

def spaces : Scan Unit := do let _ ← Scan.many isSpace

def lineBreak : Scan Unit := fun s => if beginsLine s then some ((), dropLineBreak s) else none

/-- From a number sign to the end of the line. -/
def comment : Scan Unit := do
  Scan.literal (Char.ofNat 35)
  let _ ← Scan.many isShown

/-- Only a comment may stand in the rest of the line. -/
def endOfLine : Scan Unit := do
  spaces
  let _ ← Scan.optional comment
  if (← get).isEmpty then return () else lineBreak

/-- White space, comments and line breaks, as they may stand in an array. -/
def blankLines : Scan Unit := do
  let _ ← Scan.repeated blank ((← get).length + 1)
where
  blank : Scan Unit := do
    match (← get).head? with
    | none => failure
    | some c =>
      if isSpace c then spaces
      else do
        let _ ← Scan.optional comment
        lineBreak

def isBareKeyChar (c : Char) : Bool := c.isAlphanum || c == '_' || c == '-'

def scanKeyPart : Scan String := do
  spaces
  let c := (← get).headD ' '
  let part ← if c = quoteMark then scanQuotedKey quoteMark true
    else if c = apostrophe then scanQuotedKey apostrophe false
    else String.ofList <$> Scan.many1 isBareKeyChar
  spaces
  return part

/-- How deep values may stand in one another, and how many parts a key may have. -/
def maxDepth : Nat := 79

/-- The parts of a key before the last, and the last. -/
def scanKey : Scan (List String × String) := do
  let first ← scanKeyPart
  let rest ← Scan.repeated (do Scan.literal '.'; scanKeyPart) (← get).length
  let parts := first :: rest
  if maxDepth < parts.length then failure
  return (parts.dropLast, parts.getLastD first)

/-- What stands between two brackets: items with commas between them, then `close`. -/
def scanItems {α : Type} (item : Scan α) : (limit : Nat) → Scan (List α)
  | 0 => failure
  | limit + 1 => do
    let a ← item
    match ← Scan.optional (Scan.literal ',') with
    | none => return [a]
    | some () =>
      match ← Scan.optional (scanItems item limit) with
      | some rest => return a :: rest
      | none => set (',' :: (← get)); return [a]

def scanArray (value : Scan Value) : Scan Value := do
  Scan.literal '['
  let item : Scan Value := do
    blankLines
    let v ← value
    blankLines
    return v
  let items ← Scan.optional (scanItems item ((← get).length + 1))
  if items.isSome then
    let _ ← Scan.optional (Scan.literal ',')
  blankLines
  Scan.literal ']'
  return .array (items.getD [])

def scanInlineTable (value : Scan Value) : Scan Value := do
  Scan.literal '\x7b'
  let item : Scan ((List String × String) × Value) := do
    let key ← scanKey
    Scan.literal '='
    spaces
    let v ← value
    spaces
    return (key, v)
  let items ← Scan.optional (scanItems item ((← get).length + 1))
  spaces
  Scan.literal '\x7d'
  let entries ← (items.getD []).foldlM
    (fun (es : Entries) ((path, key), v) => (es.define .inline path key v : Option Entries)) []
  return .table .inline entries

/-- A value in which further ones may stand so deep. -/
def scanValue : (depth : Nat) → Scan Value
  | 0 => do
    let c := (← get).headD ' '
    if c == '[' || c == '\x7b' then failure else scanScalar c
  | depth + 1 => do
    let c := (← get).headD ' '
    if c == '[' then scanArray (scanValue depth)
    else if c == '\x7b' then scanInlineTable (scanValue depth)
    else scanScalar c
where
  scanScalar (c : Char) : Scan Value := do
    if c = quoteMark ∨ c = apostrophe then return .text (← scanString)
    else if c == '+' || c == '-' || c.isDigit then scanNumber
    else scanName

/-- A document up to some line: its tables, and the header under which the next lines stand. -/
structure Document where
  entries : Entries
  header : List String

namespace Document

def empty : Document := ⟨[], []⟩

/-- Gives a key its value in the table under the header. -/
def define (d : Document) (path : List String) (key : String) (v : Value) : Option Document := do
  let entries ← d.entries.update .header (fun kind es => es.define kind path key v) .declared d.header
  return { d with entries }

def declare (d : Document) (path : List String) (key : String) : Option Document := do
  return ⟨← d.entries.declare path key, path ++ [key]⟩

def declareNext (d : Document) (path : List String) (key : String) : Option Document := do
  return ⟨← d.entries.declareNext path key, path ++ [key]⟩

/-- One line that is not blank. -/
def scanLine (d : Document) : Scan Document := do
  match ← get with
  | '[' :: '[' :: rest =>
    set rest
    let (path, key) ← scanKey
    Scan.word "]]"
    endOfLine
    d.declareNext path key
  | '[' :: rest =>
    set rest
    let (path, key) ← scanKey
    Scan.literal ']'
    endOfLine
    d.declare path key
  | _ =>
    let (path, key) ← scanKey
    Scan.literal '='
    spaces
    let v ← scanValue maxDepth
    endOfLine
    d.define path key v

def scanLines (d : Document) : (limit : Nat) → Scan Document
  | 0 => return d
  | limit + 1 => do
    spaces
    match ← get with
    | [] => return d
    | c :: rest =>
      if c.toNat = 35 || beginsLine (c :: rest) then
        endOfLine
        scanLines d limit
      else scanLines (← scanLine d) limit

end Document

/-- The entries of a document, if the text is one.  A byte order mark may stand in front. -/
def read (text : String) : Option Entries :=
  let s := match text.toList with
    | c :: rest => if c.toNat = 0xfeff then rest else c :: rest
    | [] => []
  match Document.scanLines .empty (s.length + 1) s with
  | some (d, []) => some d.entries
  | _ => none

end LedgerNode.Toml
