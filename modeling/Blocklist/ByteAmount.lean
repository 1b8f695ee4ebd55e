import Blocklist.Number.Rounding

/-!
# Byte amounts

How a number of bytes is shown: whole bytes below one KB, and above that one decimal of KB or MB.
The quotient is the one that binary arithmetic with 53 significant digits gives; dividing by a power
of two is exact there, so only the number itself is rounded before the one decimal is. Both
roundings go to the nearest, and a tie to the even neighbour.
-/

namespace Blocklist

/-- A unit in which an amount is shown with one decimal. -/
inductive ByteUnit where
  | kilo
  | mega
deriving DecidableEq, Repr

namespace ByteUnit

def size : ByteUnit → Nat
  | kilo => 1024
  | mega => 1024 * 1024

def symbol : ByteUnit → String
  | kilo => "KB"
  | mega => "MB"

end ByteUnit

/-- The tenths of `unit` that are shown for a number of bytes. -/
def tenthsOf (unit : ByteUnit) (bytes : Nat) : Nat :=
  roundDiv (10 * roundToBits 53 bytes) unit.size

def showTenths (tenths : Nat) : String :=
  toString (tenths / 10) ++ "." ++ toString (tenths % 10)

inductive ByteAmount where
  | whole (bytes : Nat)
  | tenths (unit : ByteUnit) (count : Nat)
deriving DecidableEq, Repr

namespace ByteAmount

def ofBytes (bytes : Nat) : ByteAmount :=
  if bytes < ByteUnit.kilo.size then .whole bytes
  else if bytes < ByteUnit.mega.size then .tenths .kilo (tenthsOf .kilo bytes)
  else .tenths .mega (tenthsOf .mega bytes)

protected def toString : ByteAmount → String
  | whole bytes => toString bytes ++ " B"
  | tenths unit count => showTenths count ++ " " ++ unit.symbol

instance : ToString ByteAmount := ⟨ByteAmount.toString⟩

end ByteAmount

def formatBytes (bytes : UInt64) : String := (ByteAmount.ofBytes bytes.toNat).toString

example : formatBytes 1023 = "1023 B" := by decide +kernel

example : formatBytes 1280 = "1.2 KB" ∧ formatBytes 1332 = "1.3 KB" := by decide +kernel

example : formatBytes 1048575 = "1024.0 KB" := by decide +kernel

end Blocklist
