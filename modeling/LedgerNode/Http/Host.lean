import LedgerNode.Http.Domain
import LedgerNode.Text.Digit
import LedgerNode.Text.Utf8

/-!
Hosts in the addresses of HTTP requests, and the paths of requests as routes see them.
-/
namespace LedgerNode.Http

open Text (hexValue? valueInBase?)

/-- Replaces a percent sign and two hexadecimal digits by the byte they write, where `admits` lets
it through. -/
def percentDecode (admits : Nat → Bool) : List Char → Bytes
  | '%' :: h :: l :: rest =>
    match hexValue? h, hexValue? l with
    | some high, some low =>
      if admits (high * 16 + low) then (high * 16 + low).toUInt8 :: percentDecode admits rest
      else 0x25 :: percentDecode admits (h :: l :: rest)
    | _, _ => 0x25 :: percentDecode admits (h :: l :: rest)
  | c :: rest => Text.utf8 c.toString ++ percentDecode admits rest
  | [] => []
termination_by cs => cs.length

def isSchemeChar (c : Char) : Bool := c.isAlphanum || c == '+' || c == '-' || c == '.'

/-- Ends the part of an address that names the host. -/
def endsAuthority (c : Char) : Bool := c == '/' || c == '?' || c.toNat == 35

/-- What a request asks for at its host.  The target may be a whole address, with the host in it; one
that names only a host asks for nothing there. -/
def originForm (target : List Char) : List Char :=
  if target.head? == some '/' then target
  else match target.dropWhile isSchemeChar with
    | ':' :: '/' :: '/' :: rest => rest.dropWhile fun c => !endsAuthority c
    | _ => []

theorem originForm_of_head {target : List Char} (h : target.head? = some '/') :
    originForm target = target := by
  simp [originForm, h]

/-- The path of a request without its query, as routes see it. -/
def routePath (target : String) : String :=
  let path := (originForm target.toList).takeWhile fun c => c != '?' && c.toNat != 35
  let protectedBytes := [0x25, 0x2b, 0x2f]
  (Text.ofUtf8? (percentDecode (fun n => !protectedBytes.contains n) path)).getD ""

/-- A number of an IPv4 address: decimal, octal behind a zero, or hexadecimal behind `0x`. -/
def ipv4Number? (cs : List Char) : Option Nat :=
  match cs with
  | [] => none
  | '0' :: 'x' :: rest | '0' :: 'X' :: rest => valueInBase? 16 rest
  | '0' :: d :: rest => valueInBase? 8 (d :: rest)
  | digits => valueInBase? 10 digits

/-- A host whose last label is a number must be an IPv4 address. -/
def isHostNumeric (labels : List (List Char)) : Bool :=
  match labels.getLast? with
  | some last => (!last.isEmpty && last.all Char.isDigit) || (ipv4Number? last).isSome
  | none => false

/-- The numbers of an address: all but the last are single bytes, the last fills what is left. -/
def isIpv4 (labels : List (List Char)) : Bool :=
  match labels.mapM ipv4Number? with
  | none => false
  | some numbers =>
    numbers.length ≤ 4 && numbers.dropLast.all (· ≤ 255) &&
      numbers.getLastD 0 < Nat.pow 256 (5 - numbers.length)

def isGroup (cs : List Char) : Bool :=
  !cs.isEmpty && cs.length ≤ 4 && cs.all fun c => (hexValue? c).isSome

/-- The groups of one side of an IPv6 address.  The side that ends the address may end with an IPv4
address, which counts for two groups. -/
def groupCount? (isLast : Bool) (side : String) : Option Nat :=
  if side.isEmpty then some 0
  else
    let groups := (side.splitOn ":").map String.toList
    let last := groups.getLastD []
    if isLast && last.contains '.' then
      let bytes := (String.ofList last).splitOn "."
      let isByte (s : String) : Bool :=
        !s.isEmpty && s.toList.all Char.isDigit && (s.length == 1 || s.toList.head? != some '0') &&
          s.toNat?.getD 256 ≤ 255
      if groups.dropLast.all isGroup && bytes.length == 4 && bytes.all isByte then
        some (groups.length + 1)
      else none
    else if groups.all isGroup then some groups.length else none

/-- Eight groups, or fewer with one gap. -/
def isIpv6 (text : String) : Bool :=
  match text.splitOn "::" with
  | [groups] => groupCount? true groups == some 8
  | [front, back] =>
    match groupCount? false front, groupCount? true back with
    | some n, some m => n + m ≤ 7
    | _, _ => false
  | _ => false

/-- Whether a text can be the host of an address. -/
def isHost (host : String) : Bool :=
  match host.toList with
  | [] => false
  | '[' :: rest => rest.getLast? == some ']' && isIpv6 (String.ofList rest.dropLast)
  | cs =>
    match (Text.ofUtf8? (percentDecode (fun _ => true) cs)).bind Domain.labels? with
    | none | some [[]] => false
    | some labels =>
      let labels := if labels.getLast? == some [] then labels.dropLast else labels
      !isHostNumeric labels || isIpv4 labels

end LedgerNode.Http
