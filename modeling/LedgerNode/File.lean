import LedgerNode.Text.Utf8

/-!
Files as a program meets them: what stands at a path, and reading and writing it whole.
-/
namespace LedgerNode

inductive FileError where
  | notFound
  | isDirectory
  /-- The bytes are not text. -/
  | notText
  | tooLarge
  deriving DecidableEq, Repr

def FileError.message : FileError → String
  | .notFound => "No such file or directory (os error 2)"
  | .isDirectory => "Is a directory (os error 21)"
  | .notText => "stream did not contain valid UTF-8"
  | .tooLarge => "File too large (os error 27)"

/-- What stands at a path. -/
inductive FileEntry where
  | absent
  | directory
  | file (content : Bytes)
  deriving DecidableEq, Inhabited

namespace FileEntry

def read : FileEntry → Except FileError Bytes
  | .absent => .error .notFound
  | .directory => .error .isDirectory
  | .file content => .ok content

def readText (f : FileEntry) : Except FileError String := do
  match Text.ofUtf8? (← f.read) with
  | some s => .ok s
  | none => .error .notText

/-- The content, where an absent file is made first. -/
def readOrCreate : FileEntry → Except FileError Bytes
  | .absent => .ok []
  | .directory => .error .isDirectory
  | .file content => .ok content

end FileEntry

/-- The longest a file may grow, if there is a bound. -/
abbrev SizeLimit := Option Nat

/-- Whether content of this length fits. -/
def SizeLimit.admits (limit : SizeLimit) (length : Nat) : Bool :=
  match limit with
  | none => true
  | some n => length ≤ n

/-- As much of the content as fits. -/
def SizeLimit.cut (limit : SizeLimit) (content : Bytes) : Bytes :=
  match limit with
  | none => content
  | some n => content.take n

/-- How much more fits behind this length. -/
def SizeLimit.behind (limit : SizeLimit) (length : Nat) : SizeLimit := limit.map (· - length)

theorem SizeLimit.cut_eq_self {limit : SizeLimit} {content : Bytes}
    (h : limit.admits content.length = true) : limit.cut content = content := by
  cases limit with
  | none => rfl
  | some n => exact List.take_of_length_le (by simpa [admits] using h)

/-- Writes a file anew.  What does not fit is lost, and the old content with it. -/
def FileEntry.overwrite (limit : SizeLimit) (content : Bytes) :
    FileEntry → Except FileError Unit × FileEntry
  | .directory => (.error .isDirectory, .directory)
  | _ => (if limit.admits content.length then .ok () else .error .tooLarge,
      .file (limit.cut content))

end LedgerNode
