import Blocklist.Json.Cursor
import Blocklist.Number.Digits

/-!
# Numbers in a text

A number is scanned into its digits first and valued afterwards. Its significand is collected in 64
bits: a digit that would overflow them is dropped, before the point at the price of one power of
ten. A number without point and exponent whose digits all fit is an integer, unless it is negative
and zero or out of the signed range; every other number is the rounded significand, multiplied or
divided once by the rounded power of ten, which is quick and not always the nearest number.
-/

namespace Blocklist.Json

/-- The parts of a number as written. -/
structure Numeral where
  negative : Bool
  whole : List Char
  fraction : Option (List Char)
  /-- Whether the exponent is negative, and its digits. -/
  exponent : Option (Bool × List Char)

/-- A significand of at most 64 bits, and the power of ten that its digits are to be read with. -/
structure Significand where
  value : Nat
  exponent : Int

namespace Significand

def fits (significand : Significand) (c : Char) : Bool :=
  10 * significand.value + digitValue c < UInt64.size

/-- Collects the digits before the point. From the first that does not fit on, each digit raises
the exponent instead. -/
def ofWhole (digits : List Char) : Significand :=
  digits.foldl (fun s c =>
    if s.exponent = 0 && s.fits c then ⟨10 * s.value + digitValue c, 0⟩
    else ⟨s.value, s.exponent + 1⟩) ⟨0, 0⟩

/-- Collects the digits after the point, up to the first that does not fit. -/
def addFraction (significand : Significand) : List Char → Significand
  | [] => significand
  | c :: digits =>
    if significand.fits c then
      addFraction ⟨10 * significand.value + digitValue c, significand.exponent - 1⟩ digits
    else significand

/-- Divides by a power of ten, in steps no larger than the greatest one that is a finite number. -/
def divideByPower (x : Double) (power : Nat) : Double :=
  if power ≤ 308 then x / Double.ofNat (Nat.pow 10 power)
  else if x.isZero then x
  else divideByPower (x / Double.ofNat (Nat.pow 10 308)) (power - 308)
termination_by power

/-- The floating point number of a significand, unless it is too large. -/
def toDouble? (significand : Significand) : Option Double :=
  let x := Double.ofNat significand.value
  if significand.exponent < 0 then some (divideByPower x significand.exponent.natAbs)
  else if significand.exponent ≤ 308 then
    let product := x * Double.ofNat (Nat.pow 10 significand.exponent.natAbs)
    if product.isInfinite then none else some product
  else if x.isZero then some x else none

end Significand

namespace Numeral

/-- The greatest exponent that is read to its end when it makes the number too large. -/
def exponentLimit : Nat := 0x7FFFFFFF

/-- How many digits of an exponent stay unread once the digits read exceed the limit. -/
def unreadDigits (digits : List Char) : Nat :=
  let lengths := (List.range' 1 digits.length).filter fun n =>
    exponentLimit < digitsValue (digits.take n)
  lengths.head?.elim 0 (digits.length - ·)

/-- The significand of the digits, without the written exponent. -/
def significand (numeral : Numeral) : Significand :=
  (Significand.ofWhole numeral.whole).addFraction (numeral.fraction.getD [])

def exponentValue (numeral : Numeral) : Int :=
  match numeral.exponent with
  | none => 0
  | some (negative, digits) => if negative then -(digitsValue digits : Int) else digitsValue digits

/-- The value of a number, or how many of its characters are unread when it is too large. -/
def value (numeral : Numeral) : Except Nat Json :=
  let s := numeral.significand
  let signed (x : Double) : Json := .float (if numeral.negative then -x else x)
  if numeral.fraction.isNone && numeral.exponent.isNone && s.exponent = 0 then
    if !numeral.negative then .ok (.int s.value)
    else if s.value = 0 || 0x8000000000000000 < s.value then .ok (signed (Double.ofNat s.value))
    else .ok (.int (-(s.value : Int)))
  else
    let unread := match numeral.exponent with
      | some (false, digits) => unreadDigits digits
      | _ => 0
    match ({ s with exponent := s.exponent + numeral.exponentValue } : Significand).toDouble? with
    | some x => .ok (signed x)
    | none => .error unread

end Numeral

namespace Reader

/-- Scans the digits before the point, of which a zero is the only one. `atEnd` is the cause to
report when the text ends where a digit has to follow. -/
def wholeDigits (atEnd : Malformation) : Reader (List Char) := do
  match ← peek with
  | none => fail atEnd
  | some '0' =>
    skip
    match ← peek with
    | some c => if c.isDigit then failPeek .invalidNumber else pure ['0']
    | none => pure ['0']
  | some c => if c.isDigit then takeWhile Char.isDigit else failPeek .invalidNumber

/-- Scans digits, at least one. -/
def someDigits (atEnd : Malformation) : Reader (List Char) := do
  match ← takeWhile Char.isDigit with
  | [] => failPeek (if (← peek).isNone then atEnd else .invalidNumber)
  | digits => pure digits

/-- Scans the digits after the point, if there is a point. -/
def fraction (atEnd : Malformation) : Reader (Option (List Char)) := do
  match ← peek with
  | some '.' =>
    skip
    some <$> someDigits atEnd
  | _ => pure none

/-- Scans an exponent, if there is one: whether it is negative, and its digits. -/
def exponent (atEnd : Malformation) : Reader (Option (Bool × List Char)) := do
  match ← peek with
  | some 'e' | some 'E' =>
    skip
    let sign ← peek
    if sign == some '+' || sign == some '-' then skip
    let digits ← someDigits atEnd
    pure (some (sign == some '-', digits))
  | _ => pure none

/-- Scans a number from its first character on, which is a sign or a digit. -/
def numeral (atEnd : Malformation) : Reader Numeral := do
  let negative := (← peek) == some '-'
  if negative then skip
  let whole ← wholeDigits atEnd
  let fraction ← fraction atEnd
  let exponent ← exponent atEnd
  return ⟨negative, whole, fraction, exponent⟩

def number : Reader Json := do
  let written ← numeral .endInValue
  match written.value with
  | .ok value => pure value
  | .error unread =>
    let position := (← get).position
    failAt ⟨position.line, position.column - unread⟩ .numberOutOfRange

end Reader

end Blocklist.Json
