import Blocklist.Number.Double

/-!
# The shortest decimal that reads back

Every finite number stands for an interval of reals, those that round to it, its ends included when
its mantissa is even. The shortest decimal of the number is the point of that interval on the
coarsest decimal grid that has one, with at most seventeen digits; of two points the nearer, and of
two equally near ones the even one.
-/

namespace Blocklist

/-- A positive decimal: `digits * 10 ^ exponent`. -/
structure Decimal where
  digits : Nat
  exponent : Int
deriving DecidableEq, Repr

namespace Decimal

/-- The same value without the zeros that end its digits. -/
def stripZeros : Nat → Decimal → Decimal
  | 0, x => x
  | fuel + 1, x =>
    if x.digits ≠ 0 ∧ x.digits % 10 = 0 then stripZeros fuel ⟨x.digits / 10, x.exponent + 1⟩ else x

end Decimal

namespace Double

/-- The reals that round to a positive number, over one denominator. -/
structure Interval where
  low : Nat
  value : Nat
  high : Nat
  denominator : Nat
  closed : Bool

/-- The reals that round to a number that is finite and not zero. Below a power of two the
neighbour is only half as far away as above it. -/
def interval (x : Double) : Interval :=
  let m := x.mantissa
  let narrow := m == hiddenBit && x.exponent != -1074
  let (num, den) := scaled 1 1 (x.exponent - 2)
  { low := (4 * m - if narrow then 1 else 2) * num
    value := 4 * m * num
    high := (4 * m + 2) * num
    denominator := den
    closed := m % 2 == 0 }

/-- How many tenfoldings bring `num / den` to at least one. -/
def placesBelowOne (den : Nat) : Nat → Nat → Nat
  | 0, _ => 0
  | fuel + 1, num => if den ≤ num then 0 else placesBelowOne den fuel (10 * num) + 1

/-- The decimal exponent of the leading digit of a positive quotient. -/
def leadingExponent (num den : Nat) : Int :=
  if den ≤ num then ((Nat.toDigits 10 (num / den)).length : Int) - 1
  else -(placesBelowOne den 400 num : Int)

/-- The point of an interval on the grid of multiples of `10 ^ exponent` that is nearest to the
value, if one of the value's two neighbours on that grid lies in the interval. -/
def Interval.onGrid? (i : Interval) (exponent : Int) : Option Decimal :=
  let up := Nat.pow 10 (-exponent).toNat
  let cell := Nat.pow 10 exponent.toNat * i.denominator
  let value := i.value * up
  let low := i.low * up
  let high := i.high * up
  let inside (point : Nat) : Bool :=
    if i.closed then low ≤ point * cell && point * cell ≤ high
    else low < point * cell && point * cell < high
  let below := value / cell
  let above := below + 1
  match inside below, inside above with
  | true, true => some ⟨roundDiv value cell, exponent⟩
  | true, false => some ⟨below, exponent⟩
  | false, true => some ⟨above, exponent⟩
  | false, false => none

/-- The shortest decimal of a number that is finite and not zero. -/
def shortest (x : Double) : Decimal :=
  let i := x.interval
  let leading := leadingExponent i.value i.denominator
  let found := (List.range 17).findSome? fun (n : Nat) => i.onGrid? (leading - n)
  (found.getD ⟨0, 0⟩).stripZeros 20

/-- Which numbers are written without an exponent. -/
structure Layout where
  /-- The least exponent of a leading digit that is written positionally. -/
  leastPositional : Int
  /-- The greatest exponent of a leading digit that is written positionally. -/
  greatestPositional : Int
  /-- The least number of digits of a written exponent. -/
  exponentDigits : Nat

/-- Numbers from `1e-5` to below `1e16` are written positionally; other exponents carry a sign and
at least two digits. -/
def layout : Layout where
  leastPositional := -5
  greatestPositional := 15
  exponentDigits := 2

/-- The digits of a natural, with zeros in front up to a width. -/
def paddedDigits (width n : Nat) : List Char :=
  let digits := Nat.toDigits 10 n
  List.replicate (width - digits.length) '0' ++ digits

/-- A decimal in a layout, always with a fraction or an exponent. -/
def Layout.write (layout : Layout) (x : Decimal) : List Char :=
  let digits := Nat.toDigits 10 x.digits
  let leading := x.exponent + digits.length - 1
  if layout.leastPositional ≤ leading ∧ leading ≤ layout.greatestPositional then
    if 0 ≤ x.exponent then digits ++ List.replicate x.exponent.toNat '0' ++ ['.', '0']
    else if 0 ≤ leading then
      digits.take (leading.toNat + 1) ++ '.' :: digits.drop (leading.toNat + 1)
    else ['0', '.'] ++ List.replicate (-leading - 1).toNat '0' ++ digits
  else
    let fraction := digits.drop 1
    digits.take 1 ++ (if fraction.isEmpty then [] else '.' :: fraction) ++
      ['e', if leading < 0 then '-' else '+'] ++ paddedDigits layout.exponentDigits leading.natAbs

/-- The text of a finite number: the shortest digits that read back. -/
def text (x : Double) : String :=
  let sign := if x.isNegative then ['-'] else []
  let magnitude := if x.isZero then ['0', '.', '0'] else layout.write x.shortest
  String.ofList (sign ++ magnitude)

instance : ToString Double := ⟨text⟩

example : (ofRatio false 1 10).text = "0.1" ∧ (ofNat 1000).text = "1000.0" := by decide +kernel

example : (ofNat (2 ^ 64)).text = "1.8446744073709552e+19" := by decide +kernel

example : (ofRatio true 0 1).text = "-0.0" ∧ (⟨1⟩ : Double).text = "5e-324" := by decide +kernel

end Double

end Blocklist
