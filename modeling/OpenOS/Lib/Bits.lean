import Mathlib

/-! Masks on natural numbers as arithmetic. C code selects bit fields with `&` and `|`
against constants; these lemmas turn such expressions into `/`, `%` and `+`, where `omega`
can take over. -/
namespace Bits

/-- A mask of the bits `k .. n - 1` keeps those bits of `x` in place. -/
theorem and_two_pow_sub_two_pow (x : Nat) {k n : Nat} (le : k ≤ n) :
    x &&& (2^n - 2^k) = x % 2^n / 2^k * 2^k := by
  have mask : 2^n - 2^k = (2^(n - k) - 1) * 2^k := by
    rw [Nat.sub_mul, ← Nat.pow_add, Nat.sub_add_cancel le, Nat.one_mul]
  apply Nat.eq_of_testBit_eq
  intro i
  rw [mask, Nat.testBit_and, Nat.testBit_mul_two_pow, Nat.testBit_mul_two_pow,
    Nat.testBit_two_pow_sub_one, Nat.testBit_div_two_pow, Nat.testBit_mod_two_pow]
  by_cases high : k ≤ i
  · have back : i - k + k = i := Nat.sub_add_cancel high
    rw [back]
    by_cases below : i < n
    · simp [high, below, show i - k < n - k by omega]
    · simp [high, below, show ¬ i - k < n - k by omega]
  · simp [high]

theorem mul_two_pow_or_of_lt (a : Nat) {b k : Nat} (lt : b < 2^k) : a * 2^k ||| b = a * 2^k + b := by
  rw [Nat.mul_comm, Nat.two_pow_add_eq_or_of_lt lt]

theorem or_mul_two_pow_of_lt {a : Nat} (b : Nat) {k : Nat} (lt : a < 2^k) : a ||| b * 2^k = a + b * 2^k := by
  rw [Nat.lor_comm, mul_two_pow_or_of_lt b lt, Nat.add_comm]

theorem shiftRight_and_two_pow_sub_one (x k n : Nat) : x >>> k &&& (2^n - 1) = x / 2^k % 2^n := by
  rw [Nat.and_two_pow_sub_one_eq_mod, Nat.shiftRight_eq_div_pow]

end Bits
