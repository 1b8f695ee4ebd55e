import Blocklist.Url.Basic
import Blocklist.Url.Percent

/-!
# Hosts of URLs

A host is an IPv6 address in square brackets, an IPv4 address, which may be written in fewer than
four numbers and in base eight or sixteen, or a name. Addresses are written in their shortest usual
form and names in lower case. Names beyond ASCII are refused. Under a scheme without rules for
hosts any text will do that holds no separator.
-/

namespace Blocklist.Url

def ipv4Number? (digits : List Char) : Option Nat :=
  match digits with
  | [] => none
  | '0' :: 'x' :: digits | '0' :: 'X' :: digits => hexDigitsValue? digits
  | '0' :: d :: digits =>
    if (d :: digits).all fun c => '0' ≤ c && c ≤ '7' then
      some ((d :: digits).foldl (fun n c => 8 * n + digitValue c) 0)
    else none
  | digits => if digits.all Char.isDigit then some (digitsValue digits) else none

/-- The parts of a name, without an empty last one behind a part. -/
def nameParts (name : List Char) : List (List Char) :=
  match (name.splitOn '.').reverse with
  | [] :: last :: before => (last :: before).reverse
  | parts => parts.reverse

/-- Whether a name is to be read as an IPv4 address. -/
def endsInNumber (name : List Char) : Bool :=
  match (nameParts name).getLast? with
  | some last => !last.isEmpty && (last.all Char.isDigit || (ipv4Number? last).isSome)
  | none => false

/-- The text of an IPv4 address. The last number stands for all bytes that are left. -/
def ipv4? (name : List Char) : Option String := do
  let numbers ← (nameParts name).mapM ipv4Number?
  let last ← numbers.getLast?
  let before := numbers.dropLast
  guard (before.length < 4 && before.all (· < 256) && last < 1 <<< (8 * (4 - before.length)))
  let rest := (List.range (4 - before.length)).reverse.map fun i => (last >>> (8 * i)) % 256
  return ".".intercalate ((before ++ rest).map toString)

def ipv6Group? (digits : List Char) : Option Nat := do
  guard (1 ≤ digits.length && digits.length ≤ 4)
  hexDigitsValue? digits

/-- The two groups that end an IPv6 address and are written as four numbers. -/
def ipv6Tail? (text : List Char) : Option (List Nat) := do
  let parts := text.splitOn '.'
  guard (parts.length = 4)
  let numbers ← parts.mapM fun digits => do
    guard (1 ≤ digits.length && digits.length ≤ 3 && digits.all Char.isDigit)
    guard (digits.length = 1 || digits.head? != some '0')
    let number := digitsValue digits
    guard (number < 256)
    return number
  match numbers with
  | [a, b, c, d] => some [256 * a + b, 256 * c + d]
  | _ => none

/-- Groups separated by colons; the last may be written as four numbers if they end the address. -/
def ipv6Groups? (atEnd : Bool) (text : List Char) : Option (List Nat) :=
  if text.isEmpty then some []
  else do
    let parts := text.splitOn ':'
    let last ← parts.getLast?
    let before ← parts.dropLast.mapM ipv6Group?
    if atEnd && last.contains '.' then return before ++ (← ipv6Tail? last)
    else return before ++ [← ipv6Group? last]

/-- What stands before and after the first two colons in a row. -/
def splitAtGap? : List Char → Option (List Char × List Char)
  | ':' :: ':' :: rest => some ([], rest)
  | c :: rest => (splitAtGap? rest).map fun (before, after) => (c :: before, after)
  | [] => none

/-- The eight groups of an IPv6 address. Two colons in a row stand for one or more zeros. -/
def ipv6? (text : List Char) : Option (List Nat) := do
  match splitAtGap? text with
  | some (before, after) =>
    let before ← ipv6Groups? false before
    let after ← ipv6Groups? true after
    guard (before.length + after.length < 8)
    return before ++ List.replicate (8 - before.length - after.length) 0 ++ after
  | none =>
    let groups ← ipv6Groups? true text
    guard (groups.length = 8)
    return groups

/-- The number of zeros at the front. -/
def leadingZeros (groups : List Nat) : Nat := (groups.takeWhile (· == 0)).length

/-- The text of an IPv6 address. Two colons take the place of the first of the longest runs of
zeros, if it is longer than one. -/
def ipv6Text (groups : List Nat) : String :=
  let shown (groups : List Nat) : String :=
    ":".intercalate (groups.map fun group => String.ofList (hexDigits group))
  let runs := (List.range groups.length).map fun i => leadingZeros (groups.drop i)
  let longest := runs.foldl max 0
  if longest < 2 then shown groups
  else
    let start := runs.findIdx (· == longest)
    shown (groups.take start) ++ "::" ++ shown (groups.drop (start + longest))

/-- Characters that no host name holds. -/
def hostSeparators : List Char :=
  ['#', '/', ':', '<', '>', '?', '@', '[', '\\', ']', '^', '|']

/-- An address in square brackets, of which the opening one has been read. -/
def bracketed (rest : List Char) : Except Fault String :=
  match rest.getLast?, ipv6? rest.dropLast with
  | some ']', some groups => .ok ("[" ++ ipv6Text groups ++ "]")
  | _, _ => .error .invalidIPv6

/-- The host of a URL whose scheme has rules for hosts. -/
def hostOfName (name : List Char) : Except Fault String :=
  match name with
  | '[' :: rest => bracketed rest
  | name =>
    match String.fromUTF8? (ByteArray.mk (percentDecode name).toArray) with
    | none => .error .invalidName
    | some decoded =>
      let name := decoded.toList.map Char.toLower
      if name.any fun c => c.toNat ≤ 0x20 || 0x7F ≤ c.toNat || c == '%' || hostSeparators.contains c
      then .error .invalidName
      else if name.isEmpty then .error .emptyHost
      else if endsInNumber name then (ipv4? name).elim (.error .invalidIPv4) .ok
      else .ok (String.ofList name)

/-- The host of a URL whose scheme has no rules for hosts. -/
def hostOfText (text : List Char) : Except Fault String :=
  match text with
  | '[' :: rest => bracketed rest
  | text =>
    if text.any fun c => c == '\x00' || c == ' ' || hostSeparators.contains c then
      .error .invalidCharacter
    else .ok (percentEncode [] text)

end Blocklist.Url
