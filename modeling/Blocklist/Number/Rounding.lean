/-!
# Rounding to nearest

The quotient of two naturals rounded to the nearest natural, a tie going to the even neighbour, and
a natural rounded in the same way to a number of significant binary digits. `roundDiv` is within
half a unit of the exact quotient (`two_mul_roundDiv_le`, `le_two_mul_roundDiv`), and even where it
is half a unit away (`even_roundDiv`). A number that has few enough digits is left alone
(`roundToBits_of_lt`). Both roundings keep the order (`roundDiv_mono`, `roundToBits_mono`).
-/

namespace Blocklist

/-- The natural nearest to `n / d`; of two nearest ones the even one. -/
def roundDiv (n d : Nat) : Nat :=
  let q := n / d
  if 2 * (n % d) < d then q
  else if d < 2 * (n % d) then q + 1
  else if q % 2 = 0 then q else q + 1

/-- A natural rounded to at most `digits` significant binary digits. -/
def roundToBits (digits n : Nat) : Nat :=
  let spare := n.log2 + 1 - digits
  roundDiv n (1 <<< spare) <<< spare

@[simp] theorem roundDiv_one (n : Nat) : roundDiv n 1 = n := by
  simp [roundDiv, Nat.mod_one]

/-- The quotient is rounded down when less than half of the divisor remains, up when more than half
does, and to the even neighbour when it is half. -/
theorem roundDiv_cases (n d : Nat) :
    roundDiv n d = n / d ∧ (2 * (n % d) < d ∨ 2 * (n % d) = d ∧ n / d % 2 = 0) ∨
      roundDiv n d = n / d + 1 ∧ (d < 2 * (n % d) ∨ 2 * (n % d) = d ∧ n / d % 2 = 1) := by
  simp only [roundDiv]
  split
  · omega
  · split
    · omega
    · split <;> omega

/-- The rounded quotient is at most half a unit above the exact one. -/
theorem two_mul_roundDiv_le {n d : Nat} : 2 * (d * roundDiv n d) ≤ 2 * n + d := by
  have split := Nat.div_add_mod n d
  rcases roundDiv_cases n d with ⟨down, -⟩ | ⟨up, half⟩
  · rw [down]; omega
  · rw [up, Nat.mul_succ]; omega

/-- The rounded quotient is at most half a unit below the exact one. -/
theorem le_two_mul_roundDiv {n d : Nat} (hd : 0 < d) : 2 * n ≤ 2 * (d * roundDiv n d) + d := by
  have split := Nat.div_add_mod n d
  have small := Nat.mod_lt n hd
  rcases roundDiv_cases n d with ⟨down, half⟩ | ⟨up, -⟩
  · rw [down]; omega
  · rw [up, Nat.mul_succ]; omega

/-- Of two nearest quotients the even one is taken. -/
theorem even_roundDiv {n d : Nat} (hd : 0 < d)
    (tie : 2 * (d * roundDiv n d) = 2 * n + d ∨ 2 * n = 2 * (d * roundDiv n d) + d) :
    roundDiv n d % 2 = 0 := by
  have split := Nat.div_add_mod n d
  have small := Nat.mod_lt n hd
  rcases roundDiv_cases n d with ⟨down, half⟩ | ⟨up, half⟩
  · rw [down] at tie ⊢; omega
  · rw [up, Nat.mul_succ] at tie; omega

/-- An exact quotient is left as it is. -/
theorem roundDiv_mul_self {d : Nat} (hd : 0 < d) (k : Nat) : roundDiv (d * k) d = k := by
  simp [roundDiv, hd]

/-- A larger numerator does not round to a smaller quotient: the bounds above leave no room for it,
except where the two numerators are equal. -/
theorem roundDiv_mono {n m d : Nat} (hd : 0 < d) (le : n ≤ m) : roundDiv n d ≤ roundDiv m d := by
  apply Nat.le_of_not_lt
  intro less
  have apart := Nat.mul_le_mul_left d less
  have above : 2 * (d * roundDiv n d) ≤ 2 * n + d := two_mul_roundDiv_le
  have below : 2 * m ≤ 2 * (d * roundDiv m d) + d := le_two_mul_roundDiv hd
  rw [Nat.mul_succ] at apart
  have same : n = m := by omega
  rw [same] at less
  exact Nat.lt_irrefl _ less

theorem le_roundDiv {n d k : Nat} (hd : 0 < d) (le : d * k ≤ n) : k ≤ roundDiv n d := by
  rw [← roundDiv_mul_self hd k]
  exact roundDiv_mono hd le

theorem roundDiv_le {n d k : Nat} (hd : 0 < d) (le : n ≤ d * k) : roundDiv n d ≤ k := by
  rw [← roundDiv_mul_self hd k]
  exact roundDiv_mono hd le

@[simp] theorem zero_roundDiv (d : Nat) : roundDiv 0 d = 0 := by
  simp [roundDiv]

theorem roundToBits_of_lt {digits n : Nat} (h : n < 1 <<< digits) : roundToBits digits n = n := by
  by_cases hn : n = 0
  · simp [hn, roundToBits]
  · rw [Nat.one_shiftLeft] at h
    have short := (Nat.log2_lt hn).2 h
    have none_spare : n.log2 + 1 - digits = 0 := by omega
    simp [roundToBits, none_spare]

/-- A number is rounded to a multiple of the place of its last significant digit. -/
theorem roundToBits_eq (digits n : Nat) :
    roundToBits digits n =
      (1 <<< (n.log2 + 1 - digits)) * roundDiv n (1 <<< (n.log2 + 1 - digits)) := by
  simp only [roundToBits]
  rw [Nat.shiftLeft_eq, Nat.one_shiftLeft, Nat.mul_comm]

/-- The leading place of a number is not lost. -/
theorem shiftLeft_log2_le_roundToBits {digits n : Nat} (some : 0 < digits) (positive : n ≠ 0) :
    1 <<< n.log2 ≤ roundToBits digits n := by
  have spare_le : n.log2 + 1 - digits ≤ n.log2 := by omega
  rw [roundToBits_eq]
  generalize n.log2 + 1 - digits = spare at spare_le ⊢
  simp only [Nat.one_shiftLeft]
  have leading : 2 ^ n.log2 = 2 ^ spare * 2 ^ (n.log2 - spare) := by
    rw [← Nat.pow_add, Nat.add_sub_cancel' spare_le]
  have kept : 2 ^ (n.log2 - spare) ≤ roundDiv n (2 ^ spare) := by
    apply le_roundDiv (Nat.two_pow_pos spare)
    rw [← leading]
    exact Nat.log2_self_le positive
  rw [leading]
  exact Nat.mul_le_mul_left _ kept

/-- Rounding carries no further than to the next power of two. -/
theorem roundToBits_le_shiftLeft (digits n : Nat) :
    roundToBits digits n ≤ 1 <<< (n.log2 + 1) := by
  have spare_le : n.log2 + 1 - digits ≤ n.log2 + 1 := Nat.sub_le _ _
  rw [roundToBits_eq]
  generalize n.log2 + 1 - digits = spare at spare_le ⊢
  simp only [Nat.one_shiftLeft]
  have next : 2 ^ (n.log2 + 1) = 2 ^ spare * 2 ^ (n.log2 + 1 - spare) := by
    rw [← Nat.pow_add, Nat.add_sub_cancel' spare_le]
  have carried : roundDiv n (2 ^ spare) ≤ 2 ^ (n.log2 + 1 - spare) := by
    apply roundDiv_le (Nat.two_pow_pos spare)
    rw [← next]
    exact Nat.le_of_lt Nat.lt_log2_self
  rw [next]
  exact Nat.mul_le_mul_left _ carried

/-- Rounding to significant digits keeps the order. Numbers with the same leading place are rounded
at the same place, and between others stands a power of two. -/
theorem roundToBits_mono {digits n m : Nat} (some : 0 < digits) (le : n ≤ m) :
    roundToBits digits n ≤ roundToBits digits m := by
  by_cases zero : n = 0
  · simp [zero, roundToBits]
  · have positive : m ≠ 0 := by omega
    have ordered : n.log2 ≤ m.log2 := by
      rw [Nat.le_log2 positive]
      exact Nat.le_trans (Nat.log2_self_le zero) le
    rcases Nat.lt_or_eq_of_le ordered with lower | same
    · calc roundToBits digits n
        _ ≤ 1 <<< (n.log2 + 1) := roundToBits_le_shiftLeft digits n
        _ ≤ 1 <<< m.log2 := by
          rw [Nat.one_shiftLeft, Nat.one_shiftLeft]
          exact Nat.pow_le_pow_right (by decide) lower
        _ ≤ roundToBits digits m := shiftLeft_log2_le_roundToBits some positive
    · rw [roundToBits_eq, roundToBits_eq, same, Nat.one_shiftLeft]
      exact Nat.mul_le_mul_left _ (roundDiv_mono (Nat.two_pow_pos _) le)

end Blocklist
