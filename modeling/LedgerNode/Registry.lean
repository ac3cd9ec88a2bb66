import LedgerNode.File
import LedgerNode.Peer
import LedgerNode.Toml.Document
import LedgerNode.Toml.Writer

/-!
The registry of known nodes, a TOML file of one table to a node.  Nodes are told apart by their
addresses, but filed under their names.
-/
namespace LedgerNode

/-- What is wrong with the tables of a registry file. -/
inductive RegistryFault where
  | malformed
  | missingField (name : String)
  | wrongType
  | outOfRange
  | wrongLength
  deriving DecidableEq, Repr

def RegistryFault.message? : RegistryFault → Option String
  | malformed => none
  | missingField name => some ("missing field `" ++ name ++ "`")
  | wrongType => some "invalid type"
  | outOfRange => some "invalid value"
  | wrongLength => some "invalid length"

inductive RegistryError where
  | read (cause : FileError)
  | write (cause : FileError)
  | parse (cause : RegistryFault)
  deriving DecidableEq, Repr

/-- The text of an error about the file at a path. -/
def RegistryError.message (path : String) : RegistryError → String
  | read cause => "failed to read node registry " ++ path ++ ": " ++ cause.message
  | write cause => "failed to write node registry " ++ path ++ ": " ++ cause.message
  | parse _ => "failed to parse node registry"

namespace Registry

/-- A node as it is filed under its name. -/
structure Entry where
  address : PeerAddress
  isBootstrap : Bool
  isActive : Bool
  deriving DecidableEq

/-- The registry by names. -/
abbrev Table := SortedMap String Entry

def decodeText : Toml.Value → Except RegistryFault String
  | .text s => .ok s
  | _ => .error .wrongType

def decodePort : Toml.Value → Except RegistryFault UInt16
  | .integer n => if 0 ≤ n ∧ n < UInt16.size then .ok n.toNat.toUInt16 else .error .outOfRange
  | _ => .error .wrongType

def decodeBoolean : Toml.Value → Except RegistryFault Bool
  | .boolean b => .ok b
  | _ => .error .wrongType

/-- The fields of an entry as far as they have been met. -/
structure Partial where
  address : Option String
  port : Option UInt16
  isBootstrap : Bool
  isActive : Bool

def Partial.empty : Partial := ⟨none, none, false, false⟩

/-- A field that is none of an entry does not matter. -/
def Partial.take (p : Partial) (key : String) (v : Toml.Value) : Except RegistryFault Partial :=
  if key = "Address" then (decodeText v).map fun s => { p with address := some s }
  else if key = "Port" then (decodePort v).map fun n => { p with port := some n }
  else if key = "Is_bootstrap" then (decodeBoolean v).map fun b => { p with isBootstrap := b }
  else if key = "Is_active" then (decodeBoolean v).map fun b => { p with isActive := b }
  else .ok p

def Partial.finish (p : Partial) : Except RegistryFault Entry :=
  match p.address, p.port with
  | none, _ => .error (.missingField "Address")
  | some _, none => .error (.missingField "Port")
  | some ip, some port => .ok ⟨⟨ip, port⟩, p.isBootstrap, p.isActive⟩

def decodeFields (es : Toml.Entries) : Except RegistryFault Entry := do
  (← es.foldlM (fun p (key, v) => p.take key v) Partial.empty).finish

/-- An entry may be an array of its fields in order; the flags at its end may be left out. -/
def decodeItems : List Toml.Value → Except RegistryFault Entry
  | ip :: port :: rest => do
    let ip ← decodeText ip
    let port ← decodePort port
    let isBootstrap ← flag rest[0]?
    let isActive ← flag rest[1]?
    return ⟨⟨ip, port⟩, isBootstrap, isActive⟩
  | [ip] => do
    let _ ← decodeText ip
    throw .wrongLength
  | [] => .error .wrongLength
where
  flag : Option Toml.Value → Except RegistryFault Bool
    | some v => decodeBoolean v
    | none => .ok false

def decodeEntry : Toml.Value → Except RegistryFault Entry
  | .table _ es => decodeFields es
  | .array items => decodeItems items
  | .tables items => decodeItems (items.map (.table .declared))
  | .time => .error (.missingField "Address")
  | _ => .error .wrongType

def decodeTable (es : Toml.Entries) : Except RegistryFault Table :=
  match es.find? "Nodes" with
  | none => .ok .empty
  | some (.table _ nodes) =>
    (nodes.mapM fun node => (decodeEntry node.2).map fun e => (node.1, e)).map SortedMap.ofList
  | some _ => .error .wrongType

/-- The table that the text of a registry file writes. -/
def parse (text : String) : Except RegistryFault Table :=
  match Toml.read text with
  | none => .error .malformed
  | some es => decodeTable es

def boolText (b : Bool) : String := if b then "true" else "false"

def renderEntry (name : String) (e : Entry) : String :=
  "[Nodes." ++ Toml.writeKey name ++ "]\nAddress = " ++ Toml.writeString e.address.ip ++
    "\nPort = " ++ toString e.address.port ++ "\nIs_bootstrap = " ++ boolText e.isBootstrap ++
    "\nIs_active = " ++ boolText e.isActive ++ "\n"

/-- The text of a registry file: one table to a node, in the order of their names. -/
def render (t : Table) : String := "\n".intercalate (t.entries.map fun (name, e) => renderEntry name e)

/-- The nodes by their addresses; of several names for one address the last counts. -/
def nodes (t : Table) : Peers :=
  .ofList (t.entries.map fun (name, e) => (e.address, ⟨name, e.isBootstrap, e.isActive⟩))

def readTable (f : FileEntry) : Except RegistryError Table :=
  match f.readText with
  | .error cause => .error (.read cause)
  | .ok text =>
    match parse text with
    | .error cause => .error (.parse cause)
    | .ok t => .ok t

/-- The nodes that a registry file lists. -/
def list (f : FileEntry) : Except RegistryError Peers := (readTable f).map nodes

def knows (t : Table) (a : PeerAddress) : Bool := t.values.any fun e => e.address == a

/-- The name to file a node under: its own, or its address where that is taken or empty. -/
def nameFor (t : Table) (a : PeerAddress) (info : PeerInfo) : String :=
  if t.contains info.name || info.name.isEmpty then toString a else info.name

/-- Files a node whose address is new; says whether it was. -/
def add (t : Table) (a : PeerAddress) (info : PeerInfo) : Bool × Table :=
  if knows t a then (false, t)
  else (true, t.insert (nameFor t a info) ⟨a, info.isBootstrap, info.isActive⟩)

/-- Files nodes in order and counts those that were new. -/
def addAll (t : Table) : List (PeerAddress × PeerInfo) → Nat × Table
  | [] => (0, t)
  | (a, info) :: rest =>
    let (isNew, t) := add t a info
    let (count, t) := addAll t rest
    ((if isNew then 1 else 0) + count, t)

/-- Adds the nodes to a registry file whose addresses it does not list, and counts them.  The file is
written anew only if there are any. -/
def merge (limit : SizeLimit) (ns : List (PeerAddress × PeerInfo)) (f : FileEntry) :
    Except RegistryError Nat × FileEntry :=
  match readTable f with
  | .error e => (.error e, f)
  | .ok t =>
    match addAll t ns with
    | (0, _) => (.ok 0, f)
    | (added, t) =>
      match f.overwrite limit (Text.utf8 (render t)) with
      | (.ok (), f) => (.ok added, f)
      | (.error cause, f) => (.error (.write cause), f)

end Registry
end LedgerNode
