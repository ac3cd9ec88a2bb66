import LedgerNode.Json.Reader

/-!
Decoding documents into values of the domain.  A decoder walks a document in the order of its text and
reports the first fault it meets, of form or of content.
-/
namespace LedgerNode.Json

/-- What is wrong with the content of a document.  `detail` is a fault that the domain found in a
string, in the domain's words. -/
inductive ContentError where
  | missingField (name : String)
  | duplicateField (name : String)
  | unknownVariant (found : String) (expected : List String)
  | wrongType
  | outOfRange
  | wrongLength
  | detail (message : String)
  | time
  deriving DecidableEq, Repr

inductive Error where
  | broken (b : Break)
  | content (e : ContentError)
  deriving DecidableEq, Repr

def ContentError.message? : ContentError → Option String
  | .missingField name => some ("missing field `" ++ name ++ "`")
  | .duplicateField name => some ("duplicate field `" ++ name ++ "`")
  | .unknownVariant found expected =>
    some ("unknown variant `" ++ found ++ "`, expected one of " ++
      ", ".intercalate (expected.map (fun v => "`" ++ v ++ "`")))
  | .wrongType => some "invalid type"
  | .outOfRange => some "invalid value"
  | .wrongLength => some "invalid length"
  | .detail message => some message
  | .time => none

def Error.message? : Error → Option String
  | .broken _ => none
  | .content e => e.message?

/-- Where a document comes from.  Reading a text, what follows the last field of a record in an array
and what cannot begin a variant are faults of form; in a document read before, they are faults of
content.  A kept document is the rest of a record whose other fields were picked out of it. -/
inductive Origin where
  | text
  | value
  | kept
  deriving DecidableEq

abbrev Decoder (α : Type) := Origin → Doc → Except Error α

/-- The document is not of the kind that is needed. -/
def mismatch : Doc → Error
  | .faulty _ b _ => .broken b
  | _ => .content .wrongType

namespace Decoder

variable {α β κ : Type}

def map (f : α → β) (dec : Decoder α) : Decoder β := fun o d => (dec o d).map f

def text : Decoder String
  | _, .text s => .ok s
  | _, d => .error (mismatch d)

def boolean : Decoder Bool
  | _, .boolean b => .ok b
  | _, d => .error (mismatch d)

/-- A whole number below `bound`. -/
def naturalBelow (bound : Nat) : Decoder Nat
  | _, .number (.natural n) =>
    if n.toNat < bound then .ok n.toNat else .error (.content .outOfRange)
  | _, .number (.negative _) => .error (.content .outOfRange)
  | _, d => .error (mismatch d)

def uint64 : Decoder UInt64 := (naturalBelow UInt64.size).map Nat.toUInt64
def uint32 : Decoder UInt32 := (naturalBelow UInt32.size).map Nat.toUInt32
def uint16 : Decoder UInt16 := (naturalBelow UInt16.size).map Nat.toUInt16

/-- A string that the domain reads further. -/
def parsed (parse : String → Except ContentError α) : Decoder α := fun o d => do
  match parse (← text o d) with
  | .ok a => .ok a
  | .error e => .error (.content e)

def items (dec : Decoder α) (o : Origin) : Items → Except Error (List α)
  | .stop none => .ok []
  | .stop (some b) => .error (.broken b)
  | .item d rest => do
    let a ← dec o d
    return a :: (← items dec o rest)

def list (dec : Decoder α) : Decoder (List α)
  | o, .array xs => items dec o xs
  | _, d => .error (mismatch d)

/-- A key, in the place of a key. -/
def keyText : Doc → Except Error String
  | .text s => .ok s
  | .faulty .text b _ => .error (.broken b)
  | .faulty .absent b _ => .error (.broken b)
  | _ => .error (.broken .malformed)

def entries (key : String → Except ContentError κ) (dec : Decoder α) (o : Origin) :
    Members → Except Error (List (κ × α))
  | .stop none => .ok []
  | .stop (some b) => .error (.broken b)
  | .member k d rest => do
    let s ← keyText k
    match key s with
    | .error e => throw (.content e)
    | .ok k =>
      let a ← dec o d
      return (k, a) :: (← entries key dec o rest)

/-- The members of an object whose keys the domain reads further, in order. -/
def assoc (key : String → Except ContentError κ) (dec : Decoder α) : Decoder (List (κ × α))
  | o, .object ms => entries key dec o ms
  | _, d => .error (mismatch d)

/-- One of the `names`, written as a string, or as an object of that one member with no content. -/
def variant (names : List (String × α)) : Decoder α
  | _, .text s => pick s
  | o, .object ms =>
    match o, ms with
    | .value, .member (.text s) d (.stop none) | .kept, .member (.text s) d (.stop none) => do
      let a ← pick s
      match o, d with
      | _, .null => .ok a
      | .kept, .object (.stop none) => .ok a
      | _, _ => .error (.content .wrongType)
    | .value, _ | .kept, _ => .error (.content .outOfRange)
    | .text, .stop none => .error (.broken .malformed)
    | .text, .stop (some b) => .error (.broken b)
    | .text, .member k d rest => do
      let a ← pick (← keyText k)
      match d with
      | .null => match rest with
        | .stop none => .ok a
        | .stop (some b) => .error (.broken b)
        | .member _ _ _ => .error (.broken .malformed)
      | d => .error (mismatch d)
  | o, d => match o, d with
    | .text, .faulty .text b _ | .text, .faulty .absent b _ => .error (.broken b)
    | .text, _ => .error (.broken .malformed)
    | _, d => .error (mismatch d)
where
  pick (s : String) : Except Error α :=
    match names.find? (·.1 == s) with
    | some (_, a) => .ok a
    | none => .error (.content (.unknownVariant s (names.map (·.1))))

end Decoder

/-- The fields of a record in their order, with what a missing one stands for, if it may be missing. -/
inductive Fields : Type → Type 1 where
  | done : Fields Unit
  | field {α β : Type} (name : String) (dec : Decoder α) (missing : Option α) (rest : Fields β) :
      Fields (α × β)

namespace Fields

/-- The fields found so far. -/
def Slots : {τ : Type} → Fields τ → Type
  | _, .done => Unit
  | _, @field α _ _ _ _ rest => Option α × rest.Slots

def emptySlots : {τ : Type} → (fs : Fields τ) → fs.Slots
  | _, .done => ()
  | _, .field _ _ _ rest => (none, rest.emptySlots)

/-- Puts a member in its slot.  A field given twice is reported before its value is looked at; a
member that is no field is none. -/
def fill (o : Origin) (key : String) (d : Doc) :
    {τ : Type} → (fs : Fields τ) → fs.Slots → Except Error (Option fs.Slots)
  | _, .done, _ => .ok none
  | _, @field α _ name dec _ rest, slots =>
    let (found, others) : Option α × rest.Slots := slots
    if key = name then
      if found.isSome then .error (.content (.duplicateField name))
      else (dec o d).map fun a => some (some a, others)
    else (rest.fill o key d others).map (·.map fun others => (found, others))

/-- The record, unless a field is missing; the first of them is reported. -/
def close : {τ : Type} → (fs : Fields τ) → fs.Slots → Except Error τ
  | _, .done, _ => .ok ()
  | _, @field α _ name _ missing rest, slots =>
    let (found, others) : Option α × rest.Slots := slots
    match found.or missing with
    | none => .error (.content (.missingField name))
    | some a => (rest.close others).map fun b => (a, b)

def ofMembers {τ : Type} (fs : Fields τ) (o : Origin) : fs.Slots → Members → Except Error τ
  | slots, .stop none => fs.close slots
  | _, .stop (some b) => .error (.broken b)
  | slots, .member k d rest => do
    match ← fs.fill o (← Decoder.keyText k) d slots with
    | some slots => ofMembers fs o slots rest
    | none =>
      match d.skip with
      | .error b => throw (.broken b)
      | .ok () => ofMembers fs o slots rest

def ofItems (o : Origin) : {τ : Type} → Fields τ → Items → Except Error τ
  | _, .done, .stop none => .ok ()
  | _, .done, .stop (some b) => .error (.broken b)
  | _, .done, .item _ _ =>
    .error (if o = .text then .broken .malformed else .content .wrongLength)
  | _, .field _ dec _ rest, .item d ds => do
    let a ← dec o d
    return (a, ← rest.ofItems o ds)
  | _, .field .., .stop (some b) => .error (.broken b)
  | _, .field _ _ missing rest, .stop none =>
    match missing with
    | none => .error (.content .wrongLength)
    | some a => (rest.ofItems o (.stop none)).map fun b => (a, b)

/-- A record, as an object of its fields or as an array of their values in order. -/
def decoder {τ : Type} (fs : Fields τ) : Decoder τ
  | o, .object ms => fs.ofMembers o fs.emptySlots ms
  | o, .array xs => fs.ofItems o xs
  | _, d => .error (mismatch d)

end Fields

/-- The members of a record whose own field is `name`: that field, decoded, and the other members. -/
def splitField {α : Type} (name : String) (dec : Decoder α) (room : Nat) :
    Option α → List (String × Doc) → Members → Except Error (α × List (String × Doc))
  | some a, others, .stop none => .ok (a, others.reverse)
  | none, _, .stop none => .error (.content (.missingField name))
  | _, _, .stop (some b) => .error (.broken b)
  | found, others, .member k d rest => do
    let key ← Decoder.keyText k
    if key = name then
      if found.isSome then throw (.content (.duplicateField name))
      let a ← dec .text d
      splitField name dec room (some a) others rest
    else
      match d.keep room with
      | .error b => throw (.broken b)
      | .ok () => splitField name dec room found ((key, d) :: others) rest

/-- A record in an object, beside a field of its own called `name`: the other members are read to
their end before any of them is decoded. -/
def besideField {α τ : Type} (name : String) (dec : Decoder α) (fs : Fields τ) : Decoder (α × τ)
  | _, .object ms => do
    let (a, others) ← splitField name dec 126 none [] ms
    let r ← fs.ofMembers .kept fs.emptySlots
      (.ofList none (others.map fun (k, d) => (.text k, d)))
    return (a, r)
  | _, d => .error (mismatch d)

/-- Decodes the document of a text; nothing but white space may follow it. -/
def decode {α : Type} (dec : Decoder α) (s : Bytes) : Except Error α :=
  match read s with
  | (d, trailing) => do
    let a ← dec .text d
    if trailing then .error (.broken .malformed) else .ok a

/-- Decodes a document that was read before. -/
def decodeDoc {α : Type} (dec : Decoder α) (d : Doc) : Except Error α := dec .value d

end LedgerNode.Json
