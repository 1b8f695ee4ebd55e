import Blocklist.Number.Rounding

/-!
# Binary floating point numbers of 64 bits

A number is kept as its bits. `ofRatio` rounds an exact quotient of naturals to the nearest number,
a tie going to the even mantissa, with gradual underflow and overflow to infinity; products and
quotients are defined through it, so every operation is exact arithmetic followed by one rounding.
-/

namespace Blocklist

/-- A binary floating point number in the interchange format of 64 bits. -/
structure Double where
  bits : UInt64
deriving DecidableEq, Repr

namespace Double

def signBit : Nat := 0x8000000000000000

/-- The leading bit of the mantissa of a normal number, which is not among its bits. -/
def hiddenBit : Nat := 0x10000000000000

/-- The bits of the exponent and the mantissa, the sign apart. -/
def magnitudeBits (x : Double) : Nat := x.bits.toNat % signBit

/-- Whether the sign bit is set; negative zero has it. -/
def isNegative (x : Double) : Bool := signBit ≤ x.bits.toNat

/-- The magnitude bits of infinity, one above those of the largest finite number. -/
def infinityBits : Nat := 2047 * hiddenBit

def isInfinite (x : Double) : Bool := x.magnitudeBits == infinityBits

def isZero (x : Double) : Bool := x.magnitudeBits == 0

def ofMagnitude (negative : Bool) (magnitude : Nat) : Double :=
  ⟨.ofNat (magnitude + if negative then signBit else 0)⟩

/-- The mantissa of a finite number: its magnitude is `mantissa * 2 ^ exponent`. -/
def mantissa (x : Double) : Nat :=
  if x.magnitudeBits < hiddenBit then x.magnitudeBits
  else hiddenBit + x.magnitudeBits % hiddenBit

def exponent (x : Double) : Int :=
  if x.magnitudeBits < hiddenBit then -1074 else (x.magnitudeBits / hiddenBit : Nat) - 1075

/-- `num / den * 2 ^ shift` as a numerator and a denominator. -/
def scaled (num den : Nat) (shift : Int) : Nat × Nat :=
  if 0 ≤ shift then (num <<< shift.toNat, den) else (num, den <<< (-shift).toNat)

/-- The exponent of the binary digit that a positive quotient is rounded to: the leading digit of
the quotient comes 52 places above it, unless that falls below the smallest exponent. -/
def roundingExponent (num den : Nat) : Int :=
  let guess : Int := (num.log2 : Int) - (den.log2 : Int)
  let (n, d) := scaled num den (-guess)
  let leading := if d ≤ n then guess else guess - 1
  max (leading - 52) (-1074)

/-- The number nearest to `num / den`, of two nearest ones the one with the even mantissa. -/
def ofRatio (negative : Bool) (num den : Nat) : Double :=
  if num = 0 then ofMagnitude negative 0
  else
    let q := roundingExponent num den
    let (n, d) := scaled num den (-q)
    let m := roundDiv n d
    let magnitude := if m < hiddenBit then m else (q + 1075).toNat * hiddenBit + (m - hiddenBit)
    ofMagnitude negative (min magnitude infinityBits)

def ofNat (n : Nat) : Double := ofRatio false n 1

/-- The rounded product of two finite numbers. -/
def mul (x y : Double) : Double :=
  let (n, d) := scaled (x.mantissa * y.mantissa) 1 (x.exponent + y.exponent)
  ofRatio (x.isNegative != y.isNegative) n d

/-- The rounded quotient of two finite numbers, the second not zero. -/
def div (x y : Double) : Double :=
  let (n, d) := scaled x.mantissa y.mantissa (x.exponent - y.exponent)
  ofRatio (x.isNegative != y.isNegative) n d

def neg (x : Double) : Double := ofMagnitude (!x.isNegative) x.magnitudeBits

instance : Mul Double := ⟨mul⟩

instance : Div Double := ⟨div⟩

instance : Neg Double := ⟨neg⟩

example : (ofRatio false 1 10).bits = 0x3FB999999999999A := by decide +kernel

example : (ofNat (2 ^ 64 - 1)).bits = 0x43F0000000000000 := by decide +kernel

example : (ofRatio false 5 (10 ^ 324)).bits = 1 := by decide +kernel

example : (ofNat (10 ^ 309)).isInfinite = true := by decide +kernel

end Double

end Blocklist
