import LedgerNode.Json.Value

/-!
A JSON text as it was read.  A text that breaks off or goes wrong still has a document: it holds what
was read up to there, with the fault in the place where reading stopped, so that whoever walks the
document in order meets the faults of form and of content in the order of the text.
-/
namespace LedgerNode.Json

/-- What ends a text too soon: its end, or something that may not stand there. -/
inductive Break where
  | cut
  | malformed
  deriving DecidableEq, Repr

/-- Where a fault sits: in a string, in a number or name, or where something should have begun. -/
inductive FaultPlace where
  | text
  | word
  | absent
  deriving DecidableEq, Repr

inductive Number where
  /-- A whole number below 2^64, written without fraction, exponent or sign. -/
  | natural (n : UInt64)
  /-- A whole number from -2^63 to -1, by its distance from zero. -/
  | negative (magnitude : Nat)
  /-- Any other number. -/
  | real
  deriving DecidableEq, Repr

mutual

inductive Doc where
  | null
  | boolean (b : Bool)
  | number (n : Number)
  | text (s : String)
  /-- `read` is what is wrong for a reader who needs the content, `skipped` for one who skips it. -/
  | faulty (place : FaultPlace) (read : Break) (skipped : Option Break)
  | array (items : Items)
  | object (members : Members)

inductive Items where
  | stop (fault : Option Break)
  | item (d : Doc) (rest : Items)

inductive Members where
  | stop (fault : Option Break)
  | member (key value : Doc) (rest : Members)

end

instance : Inhabited Doc := ⟨.null⟩

def Doc.absent (b : Break) : Doc := .faulty .absent b (some b)

def Items.ofList (fault : Option Break) : List Doc → Items
  | [] => .stop fault
  | d :: rest => .item d (ofList fault rest)

def Members.ofList (fault : Option Break) : List (Doc × Doc) → Members
  | [] => .stop fault
  | (k, d) :: rest => .member k d (ofList fault rest)

def Items.toList : Items → List Doc
  | .stop _ => []
  | .item d rest => d :: rest.toList

/-- The members whose keys are readable. -/
def Members.toList : Members → List (String × Doc)
  | .stop _ => []
  | .member (.text k) d rest => (k, d) :: rest.toList
  | .member _ _ rest => rest.toList

def Number.ofInt : Int → Number
  | .ofNat n => if n < UInt64.size then .natural n.toUInt64 else .real
  | .negSucc n => if 2 * n < UInt64.size then .negative (n + 1) else .real

mutual

def Doc.ofValue : Value → Doc
  | .null => .null
  | .boolean b => .boolean b
  | .number n => .number (.ofInt n)
  | .text s => .text s
  | .array items => .array (Items.ofValues items)
  | .object members => .object (Members.ofValues members)

def Items.ofValues : List Value → Items
  | [] => .stop none
  | v :: rest => .item (Doc.ofValue v) (Items.ofValues rest)

def Members.ofValues : List (String × Value) → Members
  | [] => .stop none
  | (k, v) :: rest => .member (.text k) (Doc.ofValue v) (Members.ofValues rest)

end

mutual

/-- The first fault that a reader meets who only looks for the end of the document. -/
def Doc.skip : Doc → Except Break Unit
  | .faulty _ _ (some b) => .error b
  | .array items => items.skip
  | .object members => members.skip
  | _ => .ok ()

def Items.skip : Items → Except Break Unit
  | .stop none => .ok ()
  | .stop (some b) => .error b
  | .item d rest => do d.skip; rest.skip

def Members.skip : Members → Except Break Unit
  | .stop none => .ok ()
  | .stop (some b) => .error b
  | .member (.faulty _ _ skipped) d rest => do
    if let some b := skipped then throw b
    d.skip
    rest.skip
  | .member (.text _) d rest => do d.skip; rest.skip
  | .member _ _ _ => .error .malformed

end

mutual

/-- The first fault that a reader meets who keeps the whole document, inside whom at most `room`
further brackets may stand open. -/
def Doc.keep (room : Nat) : Doc → Except Break Unit
  | .faulty _ b _ => .error b
  | .array items => match room with
    | 0 => .error .malformed
    | room + 1 => items.keep room
  | .object members => match room with
    | 0 => .error .malformed
    | room + 1 => members.keep room
  | _ => .ok ()

def Items.keep (room : Nat) : Items → Except Break Unit
  | .stop none => .ok ()
  | .stop (some b) => .error b
  | .item d rest => do d.keep room; rest.keep room

def Members.keep (room : Nat) : Members → Except Break Unit
  | .stop none => .ok ()
  | .stop (some b) => .error b
  | .member (.faulty _ b _) _ _ => .error b
  | .member (.text _) d rest => do d.keep room; rest.keep room
  | .member _ _ _ => .error .malformed

end

end LedgerNode.Json
