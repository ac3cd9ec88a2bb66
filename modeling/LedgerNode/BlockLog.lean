import LedgerNode.Snapshot
import LedgerNode.Text.Line

/-!
Where committed blocks are kept: in memory, or one to a line in a file.  A log only grows; a record
is appended whole or not at all.
-/
namespace LedgerNode

class BlockLog (L : Type) where
  append : L → Record → Except LedgerError Unit × L
  /-- All records in the order of commitment. -/
  records : L → Except LedgerError (List Record)

namespace Record

/-- The records behind the first one with this digest.  Zero stands before them all. -/
def after (start : Digest) (rs : List Record) : List Record :=
  if start.isZero then rs else (rs.dropWhile (·.digest != start)).drop 1

/-- Every record names the one before it as its parent, the first one `parent`, and has the digest of
its block. -/
def areLinked (parent : Digest) : List Record → Bool
  | [] => true
  | r :: rest => r.block.header.parent == parent && r.isHonest && areLinked r.digest rest

end Record

structure MemoryLog where
  records : List Record
  deriving DecidableEq, Inhabited

instance : BlockLog MemoryLog where
  append log r := (.ok (), ⟨log.records ++ [r]⟩)
  records log := .ok log.records

structure FileLog where
  content : Bytes
  limit : SizeLimit
  deriving DecidableEq, Inhabited

namespace FileLog

/-- The line that holds a record, with the line feed that ends it. -/
def line (r : Record) : Bytes := r.toJson.render ++ [0x0a]

/-- Reads the line of number `n`; a blank one holds no record. -/
def readLine (n : Nat) (line : Bytes) : Option (Except LedgerError Record) :=
  match Text.ofUtf8? line with
  | none => some (.error (.file .notText))
  | some text =>
    if Text.isBlankText text then none
    else match Json.decode Record.decoder line with
      | .ok r => some (.ok r)
      | .error cause => some (.error (.corruptLog n cause))

/-- What the lines hold, where the first has the number `n`. -/
def readLines (n : Nat) : List Bytes → List (Except LedgerError Record)
  | [] => []
  | line :: rest =>
    match readLine n line with
    | none => readLines (n + 1) rest
    | some entry => entry :: readLines (n + 1) rest

/-- The entries of the log in order, readable or not. -/
def entries (content : Bytes) : List (Except LedgerError Record) :=
  readLines 1 (Text.lines content)

/-- Feeds the entries to `visit` in order, up to the first that cannot be read or that it refuses. -/
def foldEntries {σ : Type} (visit : σ → Record → Except LedgerError σ) (s : σ) (content : Bytes) :
    Except LedgerError σ :=
  (entries content).foldlM (fun s entry => entry.bind (visit s)) s

def records (log : FileLog) : Except LedgerError (List Record) :=
  (entries log.content).mapM id

/-- Writes behind the end as much as fits; whether that was all is said beside. -/
def write (log : FileLog) (text : Bytes) : Bool × FileLog :=
  let room := log.limit.behind log.content.length
  (room.admits text.length, { log with content := log.content ++ room.cut text })

/-- Cuts the file back to a length. -/
def truncate (log : FileLog) (length : Nat) : FileLog :=
  { log with content := log.content.take length }

/-- A record that did not fit is cut off again. -/
def append (log : FileLog) (r : Record) : Except LedgerError Unit × FileLog :=
  match log.write (line r) with
  | (true, log) => (.ok (), log)
  | (false, torn) => (.error (.file .tooLarge), torn.truncate log.content.length)

instance : BlockLog FileLog where
  append := append
  records := records

end FileLog
end LedgerNode
