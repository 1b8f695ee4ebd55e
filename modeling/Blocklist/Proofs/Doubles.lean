import Blocklist.Number.Double
import Mathlib.Algebra.Order.Field.Basic
import Mathlib.Algebra.Order.Field.Rat
import Mathlib.Algebra.Order.Round
import Mathlib.Data.Int.Log
import Mathlib.Data.Rat.Floor
import Mathlib.Tactic.Linarith
import Mathlib.Tactic.NormNum
import Mathlib.Tactic.Ring

/-!
# What doubles stand for

A finite double stands for a rational. In the range of normal numbers `ofRatio` gives the double that
stands for the quotient, rounded at the last of 53 significant digits. What rounding means is said
without reference to an algorithm: the result is the nearest integer number of last places.

Two operations follow. A natural becomes its rounding to 53 significant digits, and a quotient by a
power of two is exact, because it has the digits of the dividend.
-/

namespace Blocklist

/-! ## Nearest integers -/

/-- An integer than which no other is nearer to a rational. Of two that are equally near it is the
even one. -/
structure IsNearestEven (q : ℚ) (n : ℤ) : Prop where
  nearest : ∀ k : ℤ, |q - n| ≤ |q - k|
  even_of_tie : ∀ k : ℤ, k ≠ n → |q - k| = |q - n| → Even n

namespace IsNearestEven

variable {q : ℚ} {n k : ℤ}

/-- Two integers are at least one apart, so a rational is that far from both of them together. -/
theorem one_le_add_of_ne (ne : k ≠ n) : 1 ≤ |q - n| + |q - k| := by
  have apart : 1 ≤ |k - n| := Int.one_le_abs (sub_ne_zero.mpr ne)
  calc (1 : ℚ)
    _ ≤ |(k : ℚ) - n| := by exact_mod_cast apart
    _ = |(q - n) - (q - k)| := by rw [sub_sub_sub_cancel_left]
    _ ≤ |q - n| + |q - k| := abs_sub _ _

/-- An integer at most half a unit away is nearest, provided that it is even when it is just half a
unit away. -/
theorem of_half (near : |q - n| ≤ 1 / 2) (even : |q - n| = 1 / 2 → Even n) :
    IsNearestEven q n := by
  refine ⟨fun k => ?_, fun k ne tie => even ?_⟩
  · by_cases same : k = n
    · rw [same]
    · have apart := one_le_add_of_ne (q := q) same
      linarith
  · have apart := one_le_add_of_ne (q := q) ne
    linarith

/-- A natural is nearest to itself. -/
theorem self (n : Nat) : IsNearestEven n n := by
  apply of_half <;> norm_num

theorem abs_sub_le_half (is : IsNearestEven q n) : |q - n| ≤ 1 / 2 :=
  (is.nearest (round q)).trans (abs_sub_round q)

/-- Half way between two even integers stands a third one, which would be nearer. -/
theorem unique (first : IsNearestEven q n) (second : IsNearestEven q k) : k = n := by
  by_contra ne
  have tie : |q - k| = |q - n| := le_antisymm (second.nearest n) (first.nearest k)
  obtain ⟨a, rfl⟩ := first.even_of_tie k ne tie
  obtain ⟨b, rfl⟩ := second.even_of_tie (a + a) (Ne.symm ne) tie.symm
  cases abs_eq_abs.mp tie with
  | inl same => exact ne (by exact_mod_cast sub_right_injective same)
  | inr opposite =>
    push_cast at opposite
    have middle : q = (a + b : ℤ) := by push_cast; linarith
    have least := first.nearest (a + b)
    rw [← middle, sub_self, abs_zero, abs_nonpos_iff, sub_eq_zero, middle] at least
    have equal : a + b = a + a := by exact_mod_cast least
    exact ne (by omega)

theorem iff_eq (is : IsNearestEven q n) : IsNearestEven q k ↔ k = n :=
  ⟨is.unique, fun same => same ▸ is⟩

end IsNearestEven

/-- A rounded quotient is the integer nearest to the exact one. -/
theorem isNearestEven_roundDiv {n d : Nat} (hd : 0 < d) :
    IsNearestEven ((n : ℚ) / d) (roundDiv n d) := by
  have positive : (0 : ℚ) < d := by exact_mod_cast hd
  have above : 2 * (d * roundDiv n d) ≤ (2 * n + d : ℚ) := by exact_mod_cast two_mul_roundDiv_le
  have below : (2 * n : ℚ) ≤ 2 * (d * roundDiv n d) + d := by
    exact_mod_cast le_two_mul_roundDiv hd
  have distance : |(n : ℚ) / d - (roundDiv n d : ℤ)| = |(n : ℚ) - d * roundDiv n d| / d := by
    rw [Int.cast_natCast, div_sub' positive.ne', abs_div, abs_of_pos positive]
  apply IsNearestEven.of_half
  · rw [distance, div_le_iff₀ positive, abs_le]
    constructor <;> linarith
  · intro tie
    rw [distance, div_eq_iff positive.ne', abs_eq (by linarith)] at tie
    rw [Int.even_coe_nat, Nat.even_iff]
    apply even_roundDiv hd
    cases tie with
    | inl less =>
      right
      exact_mod_cast (by linarith : (2 * n : ℚ) = 2 * (d * roundDiv n d) + d)
    | inr more =>
      left
      exact_mod_cast (by linarith : 2 * (d * roundDiv n d) = (2 * n + d : ℚ))

/-! ## Values -/

namespace Double

variable {num den m : Nat}

/-- The rational that a finite number stands for. -/
def value (x : Double) : ℚ :=
  (if x.isNegative then -1 else 1) * (x.mantissa * 2 ^ x.exponent)

theorem value_of_not_isNegative {x : Double} (sign : x.isNegative = false) :
    x.value = x.mantissa * 2 ^ x.exponent := by
  rw [value, sign]
  simp

theorem mantissa_lt (x : Double) : x.mantissa < 2 * hiddenBit := by
  have positive : 0 < hiddenBit := by decide
  have small := Nat.mod_lt x.magnitudeBits positive
  rw [mantissa]
  split <;> omega

theorem toNat_bits_ofMagnitude {magnitude : Nat} (small : magnitude < signBit) :
    (ofMagnitude false magnitude).bits.toNat = magnitude := by
  have bound : magnitude < 18446744073709551616 := Nat.lt_trans small (by decide)
  simp [ofMagnitude, bound]

theorem isNegative_ofMagnitude {magnitude : Nat} (small : magnitude < signBit) :
    (ofMagnitude false magnitude).isNegative = false := by
  rw [isNegative, toNat_bits_ofMagnitude small]
  exact decide_eq_false (Nat.not_le.mpr small)

theorem isNegative_ofRatio (num den : Nat) : (ofRatio false num den).isNegative = false := by
  rw [ofRatio]
  split
  · exact isNegative_ofMagnitude (by decide)
  · exact isNegative_ofMagnitude (Nat.lt_of_le_of_lt (Nat.min_le_right _ _) (by decide))

/-- The exponent and the rest of the mantissa stand side by side in a normal number. -/
theorem value_ofMagnitude {place rest : Nat} (normal : 0 < place) (finite : place < 2047)
    (small : rest < hiddenBit) :
    (ofMagnitude false (place * hiddenBit + rest)).value =
      (hiddenBit + rest : Nat) * 2 ^ ((place : ℤ) - 1075) := by
  have bound : place * hiddenBit + rest < signBit := by
    simp only [hiddenBit, signBit] at small ⊢
    omega
  have bits : (ofMagnitude false (place * hiddenBit + rest)).magnitudeBits =
      place * hiddenBit + rest := by
    rw [magnitudeBits, toNat_bits_ofMagnitude bound, Nat.mod_eq_of_lt bound]
  have large : ¬ place * hiddenBit + rest < hiddenBit := by
    simp only [hiddenBit] at small ⊢
    omega
  have positive : 0 < hiddenBit := by decide
  have modulo : (place * hiddenBit + rest) % hiddenBit = rest := by
    rw [Nat.mul_comm, Nat.mul_add_mod, Nat.mod_eq_of_lt small]
  have quotient : (place * hiddenBit + rest) / hiddenBit = place := by
    rw [Nat.mul_comm, Nat.mul_add_div positive, Nat.div_eq_of_lt small, Nat.add_zero]
  rw [value_of_not_isNegative (isNegative_ofMagnitude bound), mantissa, exponent, bits,
    if_neg large, if_neg large, modulo, quotient]

/-- A mantissa that was rounded up to the next power of two moves to the next place. -/
theorem value_ofMagnitude_sub {place : Nat} (normal : 0 < place) (finite : place < 2046)
    (least : hiddenBit ≤ m) (most : m ≤ 2 * hiddenBit) :
    (ofMagnitude false (place * hiddenBit + (m - hiddenBit))).value =
      m * 2 ^ ((place : ℤ) - 1075) := by
  by_cases carried : m = 2 * hiddenBit
  · have next : place * hiddenBit + (m - hiddenBit) = (place + 1) * hiddenBit + 0 := by
      rw [carried]
      simp only [hiddenBit]
      omega
    have higher : ((place + 1 : Nat) : ℤ) - 1075 = place - 1075 + 1 := by omega
    rw [next, value_ofMagnitude (by omega) (by omega) (by decide), carried, higher,
      zpow_add_one₀ two_ne_zero]
    push_cast
    ring
  · rw [value_ofMagnitude normal (by omega) (by omega), Nat.add_sub_cancel' least]

/-! ## Places -/

/-- The place of the last of 53 significant digits. -/
def lastPlace (q : ℚ) : ℤ := Int.log 2 q - 52

/-- The rationals from the smallest normal number up to the largest power of two that is a double.
They are rounded to normal numbers. -/
structure InRange (q : ℚ) : Prop where
  positive : 0 < q
  low : -1074 ≤ lastPlace q
  high : lastPlace q ≤ 970

theorem InRange.of_one_le {q : ℚ} {k : Nat} (least : 1 ≤ q) (most : q ≤ 2 ^ k) (small : k ≤ 1022) :
    InRange q := by
  have positive : 0 < q := one_pos.trans_le least
  have above : 0 ≤ Int.log 2 q := by
    rw [← Int.zpow_le_iff_le_log (by decide) positive, zpow_zero]
    exact least
  have below : Int.log 2 q ≤ k := by
    calc Int.log 2 q
      _ ≤ Int.log 2 (((2 : Nat) : ℚ) ^ (k : ℤ)) :=
        Int.log_mono_right positive (by rwa [Nat.cast_ofNat, zpow_natCast])
      _ = k := Int.log_zpow (by decide) k
  constructor
  · exact positive
  · rw [lastPlace]; omega
  · rw [lastPlace]; omega

theorem pos_of_div_pos (positive : (0 : ℚ) < num / den) : 0 < num ∧ 0 < den := by
  constructor
  · apply Nat.pos_of_ne_zero
    rintro rfl
    simp at positive
  · apply Nat.pos_of_ne_zero
    rintro rfl
    simp at positive

/-- Scaling is exact. -/
theorem scaled_div (num den : Nat) (shift : ℤ) :
    ((scaled num den shift).1 / (scaled num den shift).2 : ℚ) = num / den * 2 ^ shift := by
  rw [scaled]
  split
  · next up =>
    obtain ⟨places, rfl⟩ := Int.eq_ofNat_of_zero_le up
    simp only [Int.toNat_natCast, Nat.shiftLeft_eq]
    push_cast
    rw [zpow_natCast]
    ring
  · next down =>
    obtain ⟨places, same⟩ := Int.eq_ofNat_of_zero_le (a := -shift) (by omega)
    obtain rfl : shift = -(places : ℤ) := by omega
    simp only [neg_neg, Int.toNat_natCast, Nat.shiftLeft_eq]
    push_cast
    rw [zpow_neg, zpow_natCast, div_mul_eq_div_div, div_eq_mul_inv]

/-- The binary logarithm of a quotient is that of the numerator less that of the denominator, or one
less than that. -/
theorem log_div_bounds (posNum : 0 < num) (posDen : 0 < den) :
    (num.log2 : ℤ) - den.log2 - 1 ≤ Int.log 2 (num / den : ℚ) ∧
      Int.log 2 (num / den : ℚ) < (num.log2 : ℤ) - den.log2 + 1 := by
  have castNum : (0 : ℚ) < num := by exact_mod_cast posNum
  have castDen : (0 : ℚ) < den := by exact_mod_cast posDen
  have positive : (0 : ℚ) < num / den := div_pos castNum castDen
  have numLeast : (2 : ℚ) ^ num.log2 ≤ num := by exact_mod_cast Nat.log2_self_le posNum.ne'
  have numMost : (num : ℚ) < 2 ^ (num.log2 + 1) := by exact_mod_cast Nat.lt_log2_self
  have denLeast : (2 : ℚ) ^ den.log2 ≤ den := by exact_mod_cast Nat.log2_self_le posDen.ne'
  have denMost : (den : ℚ) < 2 ^ (den.log2 + 1) := by exact_mod_cast Nat.lt_log2_self
  constructor
  · rw [← Int.zpow_le_iff_le_log (by decide) positive]
    have place : ((2 : Nat) : ℚ) ^ ((num.log2 : ℤ) - den.log2 - 1) =
        2 ^ num.log2 / 2 ^ (den.log2 + 1) := by
      rw [Nat.cast_ofNat, sub_sub, zpow_sub₀ two_ne_zero, zpow_natCast]
      exact_mod_cast rfl
    rw [place]
    gcongr
  · rw [← Int.lt_zpow_iff_log_lt (by decide) positive]
    have place : ((2 : Nat) : ℚ) ^ ((num.log2 : ℤ) - den.log2 + 1) =
        2 ^ (num.log2 + 1) / 2 ^ den.log2 := by
      rw [Nat.cast_ofNat, sub_add_eq_add_sub, zpow_sub₀ two_ne_zero, zpow_natCast]
      exact_mod_cast rfl
    rw [place]
    exact div_lt_div₀ numMost denLeast (by positivity) (by positivity)

/-- Rounding takes place at the last of 53 significant digits, unless that falls below the smallest
exponent. -/
theorem roundingExponent_eq (positive : (0 : ℚ) < num / den) :
    roundingExponent num den = max (lastPlace (num / den)) (-1074) := by
  obtain ⟨posNum, posDen⟩ := pos_of_div_pos positive
  obtain ⟨least, most⟩ := log_div_bounds posNum posDen
  simp only [roundingExponent, lastPlace]
  generalize (num.log2 : ℤ) - den.log2 = guess at least most ⊢
  have scale := scaled_div num den (-guess)
  have bottom : (0 : ℚ) < (scaled num den (-guess)).2 := by
    have scaledPositive : (0 : ℚ) < (scaled num den (-guess)).1 / (scaled num den (-guess)).2 := by
      rw [scale]
      exact mul_pos positive (zpow_pos two_pos _)
    exact_mod_cast (pos_of_div_pos scaledPositive).2
  have leads : (scaled num den (-guess)).2 ≤ (scaled num den (-guess)).1 ↔
      guess ≤ Int.log 2 (num / den : ℚ) := by
    rw [← Int.zpow_le_iff_le_log (by decide) positive, ← Nat.cast_le (α := ℚ), ← one_le_div bottom,
      scale, zpow_neg, ← div_eq_mul_inv, Nat.cast_ofNat, one_le_div (zpow_pos two_pos guess)]
  by_cases above : guess ≤ Int.log 2 (num / den : ℚ)
  · rw [if_pos (leads.mpr above)]
    omega
  · rw [if_neg (mt leads.mp above)]
    omega

/-! ## Rounding -/

/-- A quotient with 53 digits before the point is rounded to one of them, or to the next power of
two. -/
theorem roundDiv_mem_normal {n d : Nat} (positive : 0 < d) (least : (2 : ℚ) ^ 52 ≤ n / d)
    (most : (n / d : ℚ) < 2 ^ 53) :
    hiddenBit ≤ roundDiv n d ∧ roundDiv n d ≤ 2 * hiddenBit := by
  have cast : (0 : ℚ) < d := by exact_mod_cast positive
  rw [le_div_iff₀ cast] at least
  rw [div_lt_iff₀ cast] at most
  constructor
  · apply le_roundDiv positive
    rw [Nat.mul_comm]
    exact_mod_cast least
  · apply roundDiv_le positive
    rw [Nat.mul_comm]
    exact_mod_cast most.le

/-- Measured in last places, a rational has 53 digits before the point. -/
theorem div_lastPlace_bounds {q : ℚ} (positive : 0 < q) :
    2 ^ 52 ≤ q / 2 ^ lastPlace q ∧ q / 2 ^ lastPlace q < 2 ^ 53 := by
  have unit : (0 : ℚ) < 2 ^ lastPlace q := zpow_pos two_pos _
  have least := Int.zpow_log_le_self (b := 2) (by decide) positive
  have most := Int.lt_zpow_succ_log_self (b := 2) (by decide) q
  rw [Nat.cast_ofNat] at least most
  constructor
  · have first : ((52 : Nat) : ℤ) + lastPlace q = Int.log 2 q := by rw [lastPlace]; omega
    rw [le_div_iff₀ unit, ← zpow_natCast, ← zpow_add₀ two_ne_zero, first]
    exact least
  · have next : ((53 : Nat) : ℤ) + lastPlace q = Int.log 2 q + 1 := by rw [lastPlace]; omega
    rw [div_lt_iff₀ unit, ← zpow_natCast, ← zpow_add₀ two_ne_zero, next]
    exact most

/-- A quotient is rounded to the nearest number of last places. -/
theorem value_ofRatio (inRange : InRange (num / den)) :
    ∃ m : Nat, IsNearestEven (num / den / 2 ^ lastPlace (num / den)) m ∧
      (ofRatio false num den).value = m * 2 ^ lastPlace (num / den) := by
  obtain ⟨posNum, posDen⟩ := pos_of_div_pos inRange.positive
  have rounding := roundingExponent_eq inRange.positive
  rw [max_eq_left inRange.low] at rounding
  have scale := scaled_div num den (-lastPlace (num / den))
  obtain ⟨least, most⟩ := div_lastPlace_bounds inRange.positive
  obtain ⟨positive, low, high⟩ := inRange
  rw [ofRatio, if_neg posNum.ne']
  simp only [rounding]
  generalize (num / den : ℚ) = quotient at *
  generalize lastPlace quotient = place at *
  generalize scaled num den (-place) = fraction at *
  rw [zpow_neg, ← div_eq_mul_inv] at scale
  rw [← scale] at least most ⊢
  have bottom : 0 < fraction.2 :=
    (pos_of_div_pos ((pow_pos two_pos 52).trans_le least)).2
  obtain ⟨above, below⟩ := roundDiv_mem_normal bottom least most
  refine ⟨roundDiv fraction.1 fraction.2, isNearestEven_roundDiv bottom, ?_⟩
  have exponent : ((place + 1075).toNat : ℤ) - 1075 = place := by omega
  have finite : (place + 1075).toNat * hiddenBit +
      (roundDiv fraction.1 fraction.2 - hiddenBit) ≤ infinityBits := by
    simp only [hiddenBit, infinityBits] at below ⊢
    omega
  rw [if_neg (Nat.not_lt.mpr above), min_eq_left finite,
    value_ofMagnitude_sub (by omega) (by omega) above below, exponent]

/-- A quotient with at most 53 significant digits is not rounded. -/
theorem value_ofRatio_exact {place : ℤ} (inRange : InRange (num / den)) (short : m < 2 * hiddenBit)
    (digits : (num / den : ℚ) = m * 2 ^ place) :
    (ofRatio false num den).value = num / den := by
  obtain ⟨rounded, nearest, value⟩ := value_ofRatio inRange
  obtain ⟨positive, -, -⟩ := inRange
  generalize (num / den : ℚ) = quotient at *
  have unit : (0 : ℚ) < 2 ^ lastPlace quotient := zpow_pos two_pos _
  have lower : lastPlace quotient ≤ place := by
    have cast : (m : ℚ) < 2 ^ 53 := by exact_mod_cast short
    have below : Int.log 2 quotient < 53 + place := by
      rw [← Int.lt_zpow_iff_log_lt (by decide) positive, digits, Nat.cast_ofNat,
        zpow_add₀ two_ne_zero]
      exact mul_lt_mul_of_pos_right cast (zpow_pos two_pos place)
    rw [lastPlace]
    omega
  obtain ⟨spare, same⟩ := Int.le.dest lower
  have whole : quotient = (m * 2 ^ spare : Nat) * 2 ^ lastPlace quotient := by
    calc quotient
      _ = m * 2 ^ (lastPlace quotient + spare) := by rw [same, digits]
      _ = (m * 2 ^ spare : Nat) * 2 ^ lastPlace quotient := by
        rw [zpow_add₀ two_ne_zero, zpow_natCast]
        push_cast
        ring
  rw [(div_eq_iff unit.ne').mpr whole] at nearest
  have kept : rounded = m * 2 ^ spare := by
    exact_mod_cast (IsNearestEven.self (m * 2 ^ spare)).unique nearest
  rw [value, kept, ← whole]

/-! ## Naturals and quotients -/

/-- A natural is rounded to 53 significant digits. -/
theorem value_ofNat {n : Nat} (inRange : InRange n) : (ofNat n).value = roundToBits 53 n := by
  have positive : 0 < n := by exact_mod_cast inRange.positive
  have fraction : (n / (1 : Nat) : ℚ) = n := by rw [Nat.cast_one, div_one]
  have inRange : InRange (n / (1 : Nat)) := by rwa [fraction]
  by_cases short : n < 1 <<< 53
  · have digits : (n / (1 : Nat) : ℚ) = n * 2 ^ (0 : ℤ) := by rw [fraction, zpow_zero, mul_one]
    rw [ofNat, value_ofRatio_exact inRange (Nat.lt_of_lt_of_le short (by decide)) digits,
      roundToBits_of_lt short, fraction]
  · obtain ⟨rounded, nearest, value⟩ := value_ofRatio inRange
    have long : 53 ≤ n.log2 := by
      rw [Nat.le_log2 positive.ne', ← Nat.one_shiftLeft]
      exact Nat.le_of_not_lt short
    have last : (2 : ℚ) ^ lastPlace n = (1 <<< (n.log2 + 1 - 53) : Nat) := by
      have place : lastPlace n = (n.log2 + 1 - 53 : Nat) := by
        rw [lastPlace, Int.log_natCast, ← Nat.log2_eq_log_two]
        omega
      rw [place, zpow_natCast, Nat.one_shiftLeft]
      push_cast
      rfl
    rw [fraction, last] at nearest value
    have unit : 0 < 1 <<< (n.log2 + 1 - 53) := by
      rw [Nat.one_shiftLeft]
      exact Nat.two_pow_pos _
    have same : rounded = roundDiv n (1 <<< (n.log2 + 1 - 53)) := by
      exact_mod_cast (isNearestEven_roundDiv unit).unique nearest
    rw [ofNat, value, same, roundToBits_eq, Nat.cast_mul, mul_comm]

/-- Dividing by a power of two changes no digit. -/
theorem value_div {x y : Double} {k : Nat} (signX : x.isNegative = false)
    (signY : y.isNegative = false) (power : y.value = 2 ^ k) (inRange : InRange (x.value / y.value)) :
    (x / y).value = x.value / y.value := by
  have division : x / y =
      ofRatio false (scaled x.mantissa y.mantissa (x.exponent - y.exponent)).1
        (scaled x.mantissa y.mantissa (x.exponent - y.exponent)).2 := by
    change div x y = _
    rw [div, signX, signY]
    rfl
  have valueX := value_of_not_isNegative signX
  have valueY := value_of_not_isNegative signY
  have quotient : ((scaled x.mantissa y.mantissa (x.exponent - y.exponent)).1 /
      (scaled x.mantissa y.mantissa (x.exponent - y.exponent)).2 : ℚ) = x.value / y.value := by
    rw [scaled_div, valueX, valueY, zpow_sub₀ two_ne_zero]
    ring
  have digits : x.value / y.value = x.mantissa * 2 ^ (x.exponent - k) := by
    rw [power, valueX, zpow_sub₀ two_ne_zero, zpow_natCast, mul_div_assoc]
  rw [division, ← quotient]
  exact value_ofRatio_exact (quotient ▸ inRange) x.mantissa_lt (quotient.trans digits)

theorem isNegative_ofNat (n : Nat) : (ofNat n).isNegative = false := isNegative_ofRatio n 1

/-- Of the quotient of two naturals only the dividend is rounded when the divisor is a power of
two. -/
theorem value_ofNat_div {n d k : Nat} (power : d = 2 ^ k) (short : k < 53) (least : d ≤ n)
    (most : n ≤ 2 ^ 64) : (ofNat n / ofNat d).value = roundToBits 53 n / d := by
  have castPower : (d : ℚ) = 2 ^ k := by rw [power]; push_cast; rfl
  have one_le : (1 : ℚ) ≤ d := castPower ▸ one_le_pow₀ one_le_two
  have castLeast : (d : ℚ) ≤ n := by exact_mod_cast least
  have keeps : roundToBits 53 d = d := by
    apply roundToBits_of_lt
    rw [power, Nat.one_shiftLeft]
    exact Nat.pow_lt_pow_right (by decide) short
  have divisor : (ofNat d).value = d := by
    have inRange : InRange d := .of_one_le one_le castPower.le (by omega)
    rw [value_ofNat inRange, keeps]
  have dividend : (ofNat n).value = roundToBits 53 n := by
    apply value_ofNat
    exact .of_one_le (k := 64) (one_le.trans castLeast) (by exact_mod_cast most) (by decide)
  have above : (d : ℚ) ≤ roundToBits 53 n := by
    exact_mod_cast keeps ▸ roundToBits_mono (by decide) least
  have below : (roundToBits 53 n : ℚ) ≤ 2 ^ 64 := by
    have last : roundToBits 53 (2 ^ 64) = 2 ^ 64 := by decide +kernel
    exact_mod_cast last ▸ roundToBits_mono (by decide) most
  have inRange : InRange (roundToBits 53 n / d) := by
    apply InRange.of_one_le (k := 64) _ _ (by decide)
    · rwa [one_le_div (one_pos.trans_le one_le)]
    · exact (div_le_self (Nat.cast_nonneg _) one_le).trans below
  rw [← divisor, ← dividend] at inRange ⊢
  exact value_div (isNegative_ofNat n) (isNegative_ofNat d) (divisor.trans castPower) inRange

end Double

end Blocklist
