import Mathlib

/-! Numbers put together from bit fields. -/
namespace Bits

variable {n m k : Nat}

/-- Bits put beside each other. -/
theorem shift_or (h : m < 2 ^ k) : n <<< k ||| m = n * 2 ^ k + m := by
  rw [← Nat.shiftLeft_add_eq_or_of_lt h, Nat.shiftLeft_eq]

/-- Bits put above others. -/
theorem or_shift (h : m < 2 ^ k) : m ||| n <<< k = n * 2 ^ k + m := by
  rw [Nat.or_comm, shift_or h]

theorem or_mul (h : m < 2 ^ k) : m ||| n * 2 ^ k = n * 2 ^ k + m := by
  rw [← Nat.shiftLeft_eq, or_shift h, Nat.shiftLeft_eq]

/-- A mask of `m` bits from bit `k` up keeps those bits in their place. -/
theorem and_mask (n m k : Nat) : n &&& (2 ^ m - 1) <<< k = n / 2 ^ k % 2 ^ m * 2 ^ k := by
  rw [← Nat.shiftLeft_eq, ← Nat.shiftRight_eq_div_pow, ← Nat.and_two_pow_sub_one_eq_mod]
  refine Nat.eq_of_testBit_eq fun j => ?_
  rw [Nat.testBit_and, Nat.testBit_shiftLeft, Nat.testBit_shiftLeft, Nat.testBit_and,
    Nat.testBit_shiftRight]
  by_cases hj : k ≤ j
  · simp [hj]
  · simp [hj]

end Bits
