import LedgerNode.Text.Digit

/-!
The command line of a node.  Options have long names, some have a letter too, and all of them take a
value; anything else ends the reading at once.
-/
namespace LedgerNode.CommandLine

/-- Why a command line does not say how to run a node. -/
inductive Halt where
  | helpWanted
  | versionWanted
  | missingOption
  | unknownArgument
  | missingValue
  | badValue
  | repeatedOption
  | unwantedValue
  deriving DecidableEq, Repr

/-- What a program that stops at its command line says. -/
def Halt.message : Halt → String
  | helpWanted | versionWanted => ""
  | missingOption => "a required option is missing"
  | unknownArgument => "there is no such option"
  | missingValue => "an option needs a value"
  | badValue => "the value of an option is not a number in its range"
  | repeatedOption => "an option is given twice"
  | unwantedValue => "an option takes no value"

inductive Key where
  | genesis
  | blocks
  | nodes
  | miner
  | address
  | port
  | publicIp
  | complexity
  | syncInterval
  | mineInterval
  | poolCapacity
  | peerTimeout
  | logLevel
  deriving DecidableEq, Repr

inductive Value where
  | text (s : String)
  | number (n : Nat)
  deriving DecidableEq, Repr

namespace Key

def all : List Key := [genesis, blocks, nodes, miner, address, port, publicIp, complexity,
  syncInterval, mineInterval, poolCapacity, peerTimeout, logLevel]

def long : Key → String
  | genesis => "genesis-file-path"
  | blocks => "blocks-file-path"
  | nodes => "nodes-file-path"
  | miner => "miner-address"
  | address => "address"
  | port => "port"
  | publicIp => "public-ip"
  | complexity => "complexity"
  | syncInterval => "sync-interval-secs"
  | mineInterval => "mine-interval-secs"
  | poolCapacity => "pool-capacity"
  | peerTimeout => "peer-timeout-secs"
  | logLevel => "log-level"

def short? : Key → Option Char
  | genesis => some 'g'
  | blocks => some 'd'
  | nodes => some 'n'
  | miner => some 'm'
  | port => some 'p'
  | logLevel => some 'l'
  | _ => none

def about : Key → String
  | genesis => "Genesis file with the initial balances"
  | blocks => "Block log, one JSON record per line (created if missing)"
  | nodes => "Node registry (TOML)"
  | miner => "Account credited as the miner of locally mined blocks"
  | address => "Interface the HTTP server binds to [default: 127.0.0.1]"
  | port => "[default: 8080]"
  | publicIp => "IP peers reach this node on; defaults to the bind address"
  | complexity => "Leading zero bytes required in a block hash [default: 2]"
  | syncInterval => "[default: 10]"
  | mineInterval => "[default: 5]"
  | poolCapacity =>
    "Slots in the new-transaction queue; submissions beyond it get a 503 [default: 1000]"
  | peerTimeout => "[default: 10]"
  | logLevel => "Log filter [default: info]"

def ofLong? (name : String) : Option Key := all.find? (·.long == name)

def ofShort? (c : Char) : Option Key := all.find? (·.short? == some c)

end Key

/-- The number that decimal digits write, if it is below `bound`. -/
def digitsBelow (bound : Nat) (digits : List Char) : Option Nat :=
  if !digits.isEmpty && digits.all Char.isDigit then
    let n := Text.decimalValue digits
    if n < bound then some n else none
  else none

/-- A plus sign may stand before a number. -/
def naturalBelow (bound : Nat) : List Char → Option Nat
  | '+' :: digits => digitsBelow bound digits
  | digits => digitsBelow bound digits

/-- A port may also be zero with a minus sign. -/
def portNumber : List Char → Option Nat
  | '-' :: digits => digitsBelow 1 digits
  | text => naturalBelow UInt16.size text

/-- Reads the value of an option.  Paths are not empty, texts may be. -/
def Key.read (k : Key) (text : String) : Except Halt Value :=
  match k with
  | genesis | blocks | nodes =>
    if text.isEmpty then .error .missingValue else .ok (.text text)
  | miner | address | publicIp | logLevel => .ok (.text text)
  | port =>
    match portNumber text.toList with
    | some n => .ok (.number n)
    | none => .error .badValue
  | _ =>
    match naturalBelow UInt64.size text.toList with
    | some n => .ok (.number n)
    | none => .error .badValue

/-- An option whose value stands apart from it, and that value once it has come. -/
structure Open where
  key : Key
  value : Option String
  deriving DecidableEq

/-- How far a command line has been read. -/
structure Progress where
  given : List (Key × Value)
  openOption : Option Open
  /-- No option can follow. -/
  optionsEnded : Bool
  deriving DecidableEq

namespace Progress

def start : Progress := ⟨[], none, false⟩

/-- An option with its value. -/
def add (p : Progress) (k : Key) (text : String) : Except Halt Progress :=
  if (p.given.lookup k).isSome then .error .repeatedOption
  else (k.read text).map fun v => { p with given := (k, v) :: p.given }

/-- Looks at a value that stands apart from its option; this happens late, when the next option comes
or the line ends. -/
def closeOpen (p : Progress) : Except Halt Progress :=
  match p.openOption with
  | none => .ok p
  | some ⟨_, none⟩ => .error .missingValue
  | some ⟨k, some text⟩ => { p with openOption := none }.add k text

/-- An option, with its value if that is part of the same word. -/
def option (p : Progress) (k : Key) (value : Option String) : Except Halt Progress := do
  let p ← p.closeOpen
  match value with
  | some text => p.add k text
  | none => return { p with openOption := some ⟨k, none⟩ }

/-- Ends the reading, unless something was wrong before. -/
def halt (p : Progress) (h : Halt) : Except Halt Progress := do
  let _ ← p.closeOpen
  throw h

/-- A word of the form `--name` or `--name=value`. -/
def longWord (p : Progress) (body : String) : Except Halt Progress :=
  let (name, value) := match body.toList.span (· != '=') with
    | (name, []) => (String.ofList name, none)
    | (name, _ :: value) => (String.ofList name, some (String.ofList value))
  if name == "help" || name == "version" then
    if value.isSome then .error .unwantedValue
    else p.halt (if name == "help" then .helpWanted else .versionWanted)
  else match Key.ofLong? name with
    | some k => p.option k value
    | none => .error .unknownArgument

/-- A word of the form `-x` or `-xvalue`; an equals sign may stand before the value. -/
def shortWord (p : Progress) : List Char → Except Halt Progress
  | [] => .error .unknownArgument
  | 'h' :: _ => p.halt .helpWanted
  | 'V' :: _ => p.halt .versionWanted
  | c :: rest =>
    match Key.ofShort? c, rest with
    | none, _ => .error .unknownArgument
    | some k, [] => p.option k none
    | some k, '=' :: value => p.option k (some (String.ofList value))
    | some k, value => p.option k (some (String.ofList value))

/-- A word that is no option can only be the value of one. -/
def plainWord (p : Progress) (word : String) : Except Halt Progress :=
  match p.openOption with
  | some ⟨k, none⟩ => .ok { p with openOption := some ⟨k, some word⟩ }
  | _ => .error .unknownArgument

def word (p : Progress) (w : String) : Except Halt Progress :=
  if p.optionsEnded then .error .unknownArgument
  else match w.toList with
    | ['-', '-'] => .ok { p with optionsEnded := true }
    | '-' :: '-' :: body => p.longWord (String.ofList body)
    | '-' :: c :: rest => p.shortWord (c :: rest)
    | _ => p.plainWord w

end Progress

/-- What a command line says. -/
structure Arguments where
  genesisPath : String
  blocksPath : String
  nodesPath : String
  miner : String
  address : String
  port : UInt16
  publicIp : Option String
  complexity : Nat
  syncInterval : Nat
  mineInterval : Nat
  poolCapacity : Nat
  peerTimeout : Nat
  logLevel : String
  deriving DecidableEq, Repr

def textOf? (given : List (Key × Value)) (k : Key) : Option String :=
  match given.lookup k with
  | some (.text s) => some s
  | _ => none

def numberOf? (given : List (Key × Value)) (k : Key) : Option Nat :=
  match given.lookup k with
  | some (.number n) => some n
  | _ => none

/-- Options that were not given have their defaults, except those that there are none for. -/
def Arguments.ofGiven (given : List (Key × Value)) : Except Halt Arguments :=
  match textOf? given .genesis, textOf? given .blocks, textOf? given .nodes, textOf? given .miner with
  | some genesisPath, some blocksPath, some nodesPath, some miner =>
    .ok {
      genesisPath, blocksPath, nodesPath, miner
      address := (textOf? given .address).getD "127.0.0.1"
      port := ((numberOf? given .port).getD 8080).toUInt16
      publicIp := textOf? given .publicIp
      complexity := (numberOf? given .complexity).getD 2
      syncInterval := (numberOf? given .syncInterval).getD 10
      mineInterval := (numberOf? given .mineInterval).getD 5
      poolCapacity := (numberOf? given .poolCapacity).getD 1000
      peerTimeout := (numberOf? given .peerTimeout).getD 10
      logLevel := (textOf? given .logLevel).getD "info" }
  | _, _, _, _ => .error .missingOption

/-- Reads a command line, the name of the program left out. -/
def parse (words : List String) : Except Halt Arguments := do
  let p ← words.foldlM Progress.word Progress.start
  Arguments.ofGiven (← p.closeOpen).given

def version : String := "ledger-node 0.1.0"

/-- The help text. -/
def usage : String :=
  let line (k : Key) : String :=
    (match k.short? with
      | some c => "  -" ++ c.toString ++ ", "
      | none => "      ") ++ "--" ++ k.long ++ "  " ++ k.about ++ "\n"
  "Run a proof-of-work ledger node\n\nOptions:\n" ++ String.join (Key.all.map line) ++
    "  -h, --help  Print help\n  -V, --version  Print version\n"

end LedgerNode.CommandLine
