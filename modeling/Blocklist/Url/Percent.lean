import Blocklist.Number.Digits

/-!
# Percent encoding

The bytes of a character that may not stand for itself are written as a percent sign and two
hexadecimal digits. Controls and characters beyond ASCII are never written as themselves; which
other characters are not depends on the part of the URL.
-/

namespace Blocklist.Url

/-- A byte in percent encoding. -/
def percentByte (byte : UInt8) : List Char :=
  let digits := (hexDigits byte.toNat).map Char.toUpper
  '%' :: (if byte < 16 then '0' :: digits else digits)

/-- A text with the characters encoded that are among `reserved`. -/
def percentEncode (reserved : List Char) (text : List Char) : String :=
  String.ofList (text.flatMap fun c =>
    if c.toNat < 0x20 || 0x7E < c.toNat || reserved.contains c then
      (String.singleton c).toUTF8.toList.flatMap percentByte
    else [c])

def fragmentReserved : List Char := [' ', '"', '<', '>', '\x60']

def queryReserved : List Char := [' ', '"', '#', '<', '>']

def segmentReserved : List Char := fragmentReserved ++ ['#', '?', '\x7b', '\x7d']

/-- The bytes of a text, a percent sign and two hexadecimal digits standing for one byte. -/
def percentDecode : List Char → List UInt8
  | '%' :: a :: b :: rest =>
    match hexDigitsValue? [a, b] with
    | some byte => .ofNat byte :: percentDecode rest
    | none => 0x25 :: percentDecode (a :: b :: rest)
  | c :: rest => (String.singleton c).toUTF8.toList ++ percentDecode rest
  | [] => []

end Blocklist.Url
