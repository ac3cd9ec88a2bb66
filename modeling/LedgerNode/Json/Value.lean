import LedgerNode.Text.Hex

/-!
JSON values and their compact text: no white space, members in the order given, and in strings only
the quotation mark, the backslash and control characters escaped.
-/
namespace LedgerNode.Json

inductive Value where
  | null
  | boolean (b : Bool)
  | number (n : Int)
  | text (s : String)
  | array (items : List Value)
  | object (members : List (String × Value))
  deriving Inhabited

namespace Value

def ofNat (n : Nat) : Value := .number n
def ofUInt64 (n : UInt64) : Value := .number n.toNat

end Value

/-- The letter that stands for a byte after a backslash, where there is one. -/
def shortEscape? (b : UInt8) : Option UInt8 :=
  if b = 0x22 then some 0x22
  else if b = 0x5c then some 0x5c
  else if b = 0x08 then some 0x62
  else if b = 0x0c then some 0x66
  else if b = 0x0a then some 0x6e
  else if b = 0x0d then some 0x72
  else if b = 0x09 then some 0x74
  else none

/-- A byte as it stands in a string. -/
def escapeByte (b : UInt8) : Bytes :=
  match shortEscape? b with
  | some letter => [0x5c, letter]
  | none => if b < 0x20 then [0x5c, 0x75, 0x30, 0x30, Hex.digit (b / 16), Hex.digit (b % 16)] else [b]

def renderText (s : String) : Bytes := 0x22 :: (Text.utf8 s).flatMap escapeByte ++ [0x22]

def renderNat (n : Nat) : Bytes := Text.utf8 (String.ofList (Nat.toDigits 10 n))

def renderInt : Int → Bytes
  | .ofNat n => renderNat n
  | .negSucc n => 0x2d :: renderNat (n + 1)

mutual

def Value.render : Value → Bytes
  | .null => [0x6e, 0x75, 0x6c, 0x6c]
  | .boolean true => [0x74, 0x72, 0x75, 0x65]
  | .boolean false => [0x66, 0x61, 0x6c, 0x73, 0x65]
  | .number n => renderInt n
  | .text s => renderText s
  | .array items => 0x5b :: renderItems items
  | .object members => 0x7b :: renderMembers members

/-- The items and the bracket that ends them. -/
def renderItems : List Value → Bytes
  | [] => [0x5d]
  | [v] => v.render ++ [0x5d]
  | v :: rest => v.render ++ 0x2c :: renderItems rest

/-- The members and the brace that ends them. -/
def renderMembers : List (String × Value) → Bytes
  | [] => [0x7d]
  | [(k, v)] => renderText k ++ 0x3a :: v.render ++ [0x7d]
  | (k, v) :: rest => renderText k ++ 0x3a :: v.render ++ 0x2c :: renderMembers rest

end

end LedgerNode.Json
