import Blocklist.ByteAmount
import Blocklist.Number.Digits
import Blocklist.Proofs.Doubles
import Mathlib.Tactic.FieldSimp
import Mathlib.Tactic.Linarith
import Mathlib.Tactic.Ring

/-!
# What displayed amounts say

The text that displays a number of bytes is read back as an amount, whole bytes or tenths of a unit.
The tenths are the integer nearest to the quotient of two doubles, the number and its unit. Up to 53
binary digits that quotient is the exact one, so an amount is off by at most half a tenth of its
unit. For every number, also for one that is rounded twice, more bytes are never displayed as a
smaller amount.

The order is carried by the units. A unit that lies between two numbers lies between their amounts
as well, because ten tenths of a unit are shown for the unit itself; and two numbers with no unit
between them are displayed in the same form, in which each rounding keeps the order.
-/

namespace Blocklist

/-! ## Tenths of a unit -/

namespace ByteUnit

theorem size_pos (unit : ByteUnit) : 0 < unit.size := by
  cases unit <;> decide

theorem kilo_size_le (unit : ByteUnit) : kilo.size ≤ unit.size := by
  cases unit <;> decide

theorem exists_size_eq (unit : ByteUnit) : ∃ k, unit.size = 2 ^ k ∧ k < 53 := by
  cases unit with
  | kilo => exact ⟨10, by decide, by decide⟩
  | mega => exact ⟨20, by decide, by decide⟩

/-- The largest unit that does not exceed a number of bytes, from one KB on. -/
def largest (bytes : Nat) : ByteUnit := if bytes < mega.size then kilo else mega

theorem size_largest_le {bytes : Nat} (le : kilo.size ≤ bytes) :
    (largest bytes).size ≤ bytes := by
  rw [largest]
  split
  · exact le
  · next many => exact Nat.le_of_not_lt many

theorem size_le_size_largest (unit : ByteUnit) {bytes : Nat} (le : unit.size ≤ bytes) :
    unit.size ≤ (largest bytes).size := by
  cases unit with
  | kilo => exact kilo_size_le _
  | mega => rw [largest, if_neg (Nat.not_lt.mpr le)]

end ByteUnit

theorem tenthsOf_mono (unit : ByteUnit) {bytes more : Nat} (le : bytes ≤ more) :
    tenthsOf unit bytes ≤ tenthsOf unit more :=
  roundDiv_mono unit.size_pos (Nat.mul_le_mul_left 10 (roundToBits_mono (by decide) le))

theorem tenthsOf_size (unit : ByteUnit) : tenthsOf unit unit.size = 10 := by
  cases unit <;> decide +kernel

/-- The tenths are those nearest to the quotient of doubles. -/
theorem isNearestEven_value_tenthsOf (unit : ByteUnit) {bytes : Nat} (least : unit.size ≤ bytes)
    (most : bytes ≤ 2 ^ 64) :
    IsNearestEven (10 * (Double.ofNat bytes / Double.ofNat unit.size).value)
      (tenthsOf unit bytes) := by
  obtain ⟨k, power, short⟩ := unit.exists_size_eq
  rw [Double.value_ofNat_div power short least most, ← mul_div_assoc]
  exact_mod_cast isNearestEven_roundDiv (n := 10 * roundToBits 53 bytes) unit.size_pos

/-- With at most 53 binary digits the tenths are rounded once. -/
theorem isNearestEven_tenthsOf (unit : ByteUnit) {bytes : Nat} (short : bytes < 2 ^ 53) :
    IsNearestEven (10 * bytes / unit.size) (tenthsOf unit bytes) := by
  rw [tenthsOf, roundToBits_of_lt (by rwa [Nat.one_shiftLeft])]
  exact_mod_cast isNearestEven_roundDiv (n := 10 * bytes) unit.size_pos

namespace ByteAmount

/-! ## Amounts in bytes -/

def inBytes : ByteAmount → ℚ
  | whole bytes => bytes
  | tenths unit count => count * unit.size / 10

/-- From one KB on, tenths of the largest unit are displayed. -/
theorem ofBytes_of_kilo_le {bytes : Nat} (le : ByteUnit.kilo.size ≤ bytes) :
    ofBytes bytes =
      tenths (ByteUnit.largest bytes) (tenthsOf (ByteUnit.largest bytes) bytes) := by
  rw [ofBytes, if_neg (Nat.not_lt.mpr le), ByteUnit.largest]
  split <;> rfl

theorem inBytes_tenths_mono (unit : ByteUnit) {count more : Nat} (le : count ≤ more) :
    (tenths unit count).inBytes ≤ (tenths unit more).inBytes := by
  have cast : (count : ℚ) ≤ more := by exact_mod_cast le
  simp only [inBytes]
  gcongr

/-- From a unit on, its tenths say at least the unit. -/
theorem le_inBytes_tenths (unit : ByteUnit) {bytes : Nat} (le : unit.size ≤ bytes) :
    unit.size ≤ (tenths unit (tenthsOf unit bytes)).inBytes := by
  have ten : 10 ≤ tenthsOf unit bytes := by
    rw [← tenthsOf_size unit]
    exact tenthsOf_mono unit le
  calc (unit.size : ℚ)
    _ = (tenths unit 10).inBytes := by simp [inBytes]
    _ ≤ (tenths unit (tenthsOf unit bytes)).inBytes := inBytes_tenths_mono unit ten

/-- An amount that is displayed below a unit does not exceed the unit. -/
theorem inBytes_ofBytes_le (unit : ByteUnit) {bytes : Nat} (lt : bytes < unit.size) :
    (ofBytes bytes).inBytes ≤ unit.size := by
  have cast : (bytes : ℚ) ≤ unit.size := by exact_mod_cast lt.le
  cases unit with
  | kilo =>
    rw [ofBytes, if_pos lt]
    exact cast
  | mega =>
    by_cases few : bytes < ByteUnit.kilo.size
    · rw [ofBytes, if_pos few]
      exact cast
    · rw [ofBytes, if_neg few, if_pos lt]
      have last : tenthsOf .kilo ByteUnit.mega.size = 10240 := by decide +kernel
      have most : tenthsOf .kilo bytes ≤ 10240 := by
        rw [← last]
        exact tenthsOf_mono .kilo lt.le
      calc (tenths .kilo (tenthsOf .kilo bytes)).inBytes
        _ ≤ (tenths .kilo 10240).inBytes := inBytes_tenths_mono .kilo most
        _ = ByteUnit.mega.size := by norm_num [inBytes, ByteUnit.size]

/-- An amount that is displayed from a unit on is not below the unit. -/
theorem le_inBytes_ofBytes (unit : ByteUnit) {bytes : Nat} (le : unit.size ≤ bytes) :
    unit.size ≤ (ofBytes bytes).inBytes := by
  have larger : (unit.size : ℚ) ≤ (ByteUnit.largest bytes).size := by
    exact_mod_cast ByteUnit.size_le_size_largest unit le
  have above : ByteUnit.kilo.size ≤ bytes := unit.kilo_size_le.trans le
  rw [ofBytes_of_kilo_le above]
  exact larger.trans (le_inBytes_tenths _ (ByteUnit.size_largest_le above))

/-- More bytes are not displayed as a smaller amount. -/
theorem inBytes_ofBytes_mono {bytes more : Nat} (le : bytes ≤ more) :
    (ofBytes bytes).inBytes ≤ (ofBytes more).inBytes := by
  by_cases switch : ∃ unit : ByteUnit, bytes < unit.size ∧ unit.size ≤ more
  · obtain ⟨unit, below, above⟩ := switch
    exact (inBytes_ofBytes_le unit below).trans (le_inBytes_ofBytes unit above)
  · have same (unit : ByteUnit) : more < unit.size ↔ bytes < unit.size := by
      refine ⟨le.trans_lt, fun below => ?_⟩
      exact Nat.lt_of_not_le fun above => switch ⟨unit, below, above⟩
    simp only [ofBytes, same]
    split
    · simpa only [inBytes, Nat.cast_le] using le
    · split
      · exact inBytes_tenths_mono .kilo (tenthsOf_mono .kilo le)
      · exact inBytes_tenths_mono .mega (tenthsOf_mono .mega le)

/-- Nearest tenths are off by at most half a tenth. -/
theorem abs_inBytes_tenths_sub_le {unit : ByteUnit} {bytes count : Nat}
    (nearest : IsNearestEven (10 * bytes / unit.size) count) :
    |(tenths unit count).inBytes - bytes| ≤ unit.size / 20 := by
  have positive : (0 : ℚ) < unit.size := by exact_mod_cast unit.size_pos
  have tenth : (0 : ℚ) ≤ unit.size / 10 := by positivity
  have scaled : (tenths unit count).inBytes - bytes =
      unit.size / 10 * (count - 10 * bytes / unit.size) := by
    simp only [inBytes]
    field_simp
  have half : |(count : ℚ) - 10 * bytes / unit.size| ≤ 1 / 2 := by
    rw [abs_sub_comm]
    exact_mod_cast nearest.abs_sub_le_half
  calc |(tenths unit count).inBytes - bytes|
    _ = unit.size / 10 * |(count : ℚ) - 10 * bytes / unit.size| := by
      rw [scaled, abs_mul, abs_of_nonneg tenth]
    _ ≤ unit.size / 10 * (1 / 2) := mul_le_mul_of_nonneg_left half tenth
    _ = unit.size / 20 := by ring

/-! ## Reading amounts -/

/-- The natural that a row of decimal digits stands for. -/
def readWhole? (digits : List Char) : Option Nat :=
  if digits ≠ [] ∧ digits.all Char.isDigit then some (digitsValue digits) else none

def readTenths? (number : List Char) : Option Nat :=
  match number.dropWhile (· ≠ '.') with
  | ['.', tenth] => do
    let whole ← readWhole? (number.takeWhile (· ≠ '.'))
    let tenth ← readWhole? [tenth]
    return 10 * whole + tenth
  | _ => none

/-- The amount that a text says: a number, a space and a unit. -/
def ofText? (text : String) : Option ByteAmount :=
  let number := text.toList.takeWhile (· ≠ ' ')
  match text.toList.dropWhile (· ≠ ' ') with
  | [' ', 'B'] => (readWhole? number).map whole
  | [' ', 'K', 'B'] => (readTenths? number).map (tenths .kilo)
  | [' ', 'M', 'B'] => (readTenths? number).map (tenths .mega)
  | _ => none

theorem not_mem_toDigits {mark : Char} (other : mark.isDigit = false) (n : Nat) :
    mark ∉ Nat.toDigits 10 n := by
  intro member
  have digit := Nat.isDigit_of_mem_toDigits (by decide) (by decide) member
  rw [digit] at other
  contradiction

/-- A text is cut in two before a mark that does not come earlier. -/
theorem cut_before {mark : Char} {front : List Char} (free : mark ∉ front) (rest : List Char) :
    (front ++ mark :: rest).takeWhile (· ≠ mark) = front ∧
      (front ++ mark :: rest).dropWhile (· ≠ mark) = mark :: rest := by
  have all : ∀ c ∈ front, decide (c ≠ mark) = true := by
    intro c member
    exact decide_eq_true fun same => free (same ▸ member)
  rw [List.takeWhile_append_of_pos all, List.dropWhile_append_of_pos all]
  simp

theorem readWhole?_toDigits (n : Nat) : readWhole? (Nat.toDigits 10 n) = some n := by
  have digits : (Nat.toDigits 10 n).all Char.isDigit = true := by
    rw [List.all_eq_true]
    exact fun _ member => Nat.isDigit_of_mem_toDigits (by decide) (by decide) member
  rw [readWhole?, if_pos ⟨Nat.toDigits_ne_nil, digits⟩, digitsValue_toDigits]

theorem toList_showTenths (count : Nat) :
    (showTenths count).toList =
      Nat.toDigits 10 (count / 10) ++ '.' :: Nat.toDigits 10 (count % 10) := by
  simp [showTenths]

theorem readTenths?_showTenths (count : Nat) :
    readTenths? (showTenths count).toList = some count := by
  have small : count % 10 < 10 := Nat.mod_lt _ (by decide)
  have digit := Nat.toDigits_of_lt_base small
  have last : readWhole? [(count % 10).digitChar] = some (count % 10) := by
    rw [← digit, readWhole?_toDigits]
  have free : '.' ∉ Nat.toDigits 10 (count / 10) := not_mem_toDigits rfl _
  obtain ⟨front, back⟩ := cut_before free [(count % 10).digitChar]
  rw [readTenths?, toList_showTenths, digit, front, back]
  simp [readWhole?_toDigits, last, Nat.div_add_mod]

/-- The text of an amount is read as that amount. -/
theorem ofText?_toString (amount : ByteAmount) : ofText? amount.toString = some amount := by
  cases amount with
  | whole bytes =>
    have text : (whole bytes).toString.toList = Nat.toDigits 10 bytes ++ ' ' :: ['B'] := by
      simp [ByteAmount.toString]
    have free : ' ' ∉ Nat.toDigits 10 bytes := not_mem_toDigits rfl bytes
    obtain ⟨front, back⟩ := cut_before free ['B']
    simp only [ofText?, text, front, back, readWhole?_toDigits, Option.map_some]
  | tenths unit count =>
    have text : (tenths unit count).toString.toList =
        (showTenths count).toList ++ ' ' :: unit.symbol.toList := by
      simp [ByteAmount.toString]
    have free : ' ' ∉ (showTenths count).toList := by
      have spaceless (n : Nat) : ' ' ∉ Nat.toDigits 10 n := not_mem_toDigits rfl n
      simp [toList_showTenths, spaceless]
    obtain ⟨front, back⟩ := cut_before free unit.symbol.toList
    simp only [ofText?, text, front, back]
    cases unit with
    | kilo => simp [ByteUnit.symbol, readTenths?_showTenths]
    | mega => simp [ByteUnit.symbol, readTenths?_showTenths]

example : ofText? "1024.0 KB" = some (.tenths .kilo 10240) ∧ ofText? "1024 KB" = none := by
  decide +kernel

end ByteAmount

/-! ## The texts of numbers of bytes -/

theorem ofText?_formatBytes (bytes : UInt64) :
    ByteAmount.ofText? (formatBytes bytes) = some (.ofBytes bytes.toNat) :=
  ByteAmount.ofText?_toString _

/-- Every text is read back as an amount. More bytes never display a smaller one, and below one KB
the amount is exact. From there its tenths are those nearest to the quotient of doubles, and up to 53
binary digits those nearest to the exact quotient, which leaves it at most half a tenth off. -/
theorem formatBytes_ordered_and_accurate :
    (∀ bytes more : UInt64, bytes ≤ more → ∃ shown shownMore,
        ByteAmount.ofText? (formatBytes bytes) = some shown ∧
        ByteAmount.ofText? (formatBytes more) = some shownMore ∧
        shown.inBytes ≤ shownMore.inBytes) ∧
      (∀ bytes : UInt64, bytes.toNat < 1024 → ∃ shown,
        ByteAmount.ofText? (formatBytes bytes) = some shown ∧ shown.inBytes = bytes.toNat) ∧
      ∀ bytes : UInt64, 1024 ≤ bytes.toNat → ∃ unit count,
        ByteAmount.ofText? (formatBytes bytes) = some (.tenths unit count) ∧
        unit.size = (if bytes.toNat < 1048576 then 1024 else 1048576) ∧
        IsNearestEven (10 * (Double.ofNat bytes.toNat / Double.ofNat unit.size).value) count ∧
        (bytes.toNat < 2 ^ 53 →
          (∀ k : ℤ, IsNearestEven (10 * bytes.toNat / unit.size) k ↔ k = count) ∧
          |(ByteAmount.tenths unit count).inBytes - bytes.toNat| ≤ unit.size / 20) := by
  refine ⟨?_, ?_, ?_⟩
  · intro bytes more le
    refine ⟨_, _, ofText?_formatBytes bytes, ofText?_formatBytes more, ?_⟩
    exact ByteAmount.inBytes_ofBytes_mono (UInt64.le_iff_toNat_le.mp le)
  · intro bytes few
    refine ⟨_, ofText?_formatBytes bytes, ?_⟩
    have whole : ByteAmount.ofBytes bytes.toNat = .whole bytes.toNat := if_pos few
    rw [whole]
    rfl
  · intro bytes le
    refine ⟨.largest bytes.toNat, tenthsOf (.largest bytes.toNat) bytes.toNat, ?_, ?_, ?_,
      fun short => ?_⟩
    · rw [ofText?_formatBytes, ByteAmount.ofBytes_of_kilo_le le]
    · exact apply_ite ByteUnit.size _ _ _
    · exact isNearestEven_value_tenthsOf _ (ByteUnit.size_largest_le le) bytes.toNat_lt.le
    · have nearest := isNearestEven_tenthsOf (.largest bytes.toNat) short
      exact ⟨fun _ => nearest.iff_eq, ByteAmount.abs_inBytes_tenths_sub_le nearest⟩

end Blocklist
