import Mathlib.Data.Nat.Bitwise

/-!
Masks of the high bits of a number.

A mask that is made of ones above the position `k` and zeros below it rounds a number down to a
multiple of `2 ^ k`. Rounding down is monotone, so numbers between two that agree under the mask
agree with them.
-/

namespace TinyDhcpd.Mask

/-- The bits from position `k` on of a number of `w` bits. -/
def highBits (w k : ℕ) : ℕ := 2 ^ w - 2 ^ k

variable {w k : ℕ}

lemma testBit_highBits (hk : k ≤ w) (i : ℕ) :
    (highBits w k).testBit i = (decide (k ≤ i) && decide (i < w)) := by
  have hfactor : highBits w k = 2 ^ k * (2 ^ (w - k) - 1) := by
    rw [highBits, Nat.mul_sub, ← Nat.pow_add, Nat.add_sub_cancel' hk, Nat.mul_one]
  rw [hfactor, Nat.testBit_two_pow_mul, Nat.testBit_two_pow_sub_one]
  by_cases hi : k ≤ i
  · have hiff : i - k < w - k ↔ i < w := by omega
    simp [hi, hiff]
  · simp [hi]

lemma and_highBits (hk : k ≤ w) {n : ℕ} (hn : n < 2 ^ w) :
    n &&& highBits w k = n / 2 ^ k * 2 ^ k := by
  refine Nat.eq_of_testBit_eq fun i => ?_
  rw [Nat.testBit_and, testBit_highBits hk, Nat.testBit_mul_two_pow, Nat.testBit_div_two_pow]
  by_cases hi : k ≤ i
  · by_cases hw : i < w
    · simp [hi, hw]
    · have hzero : n.testBit i = false :=
        Nat.testBit_lt_two_pow (lt_of_lt_of_le hn (Nat.pow_le_pow_right (by omega) (by omega)))
      simp [hi, hw, hzero]
  · simp [hi]

/-- **Numbers in between agree under the mask.** -/
theorem and_highBits_of_between (hk : k ≤ w) {a x b : ℕ} (hb : b < 2 ^ w)
    (heq : a &&& highBits w k = b &&& highBits w k) (ha : a ≤ x) (hx : x ≤ b) :
    x &&& highBits w k = b &&& highBits w k := by
  have hpos : 0 < 2 ^ k := Nat.two_pow_pos k
  rw [and_highBits hk (by omega), and_highBits hk hb] at heq
  rw [and_highBits hk (by omega), and_highBits hk hb]
  have hquot : a / 2 ^ k = b / 2 ^ k := Nat.eq_of_mul_eq_mul_right hpos heq
  have hle : b / 2 ^ k ≤ x / 2 ^ k := calc
    b / 2 ^ k = a / 2 ^ k := hquot.symm
    _ ≤ x / 2 ^ k := Nat.div_le_div_right ha
  rw [le_antisymm (Nat.div_le_div_right hx) hle]

end TinyDhcpd.Mask
