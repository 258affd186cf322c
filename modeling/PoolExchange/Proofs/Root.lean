import Mathlib.Tactic
import Mathlib.Data.Nat.Sqrt
import PoolExchange.Amount.Root

/-!
# Root — the integer square root is exact for every amount

The loop of `newton` holds a guess and the next one, and goes round while the guesses fall.  Over the
radicand `x` it holds `z` and `y` after `n` rounds when `Guesses x n z y`.

The next guess is always the mean of `z` and `x / z`, rounded down: from the start on, where `z` is
`x` itself (`Guesses.next_eq`).  A mean is not below the root (`lt_succ_mean_sq`), and it is below
the guess only when the guess is above the root.  So the guess at which the loop stops is the root.

Above the root `x / z` is at most the root, so a round at least halves what a guess is too large by
(`Guesses.excess_le`): after as many rounds as `x` has bits nothing of it is left.  The sum of `y`
and `x / y` is at most `x`, or tiny (`Guesses.sum_le`).

**The root of every amount is exact; the loop ends with it after 256 rounds at most, and no sum on
the way passes the largest amount** (`Amount.root_exact`).
-/

namespace PoolExchange

/-- Over the radicand `x` the loop holds the guess `z` and the next guess `y` after `n` rounds. -/
inductive Guesses (x : Nat) : Nat → Nat → Nat → Prop where
  | start : Guesses x 0 x (x / 2 + x % 2)
  | round {n z y : Nat} (h : Guesses x n z y) (hfall : y < z) :
      Guesses x (n + 1) y ((x / y + y) / 2)

/-! ### The mean of a guess and its cofactor -/

/-- The mean, rounded down, is not below the root. -/
theorem lt_succ_mean_sq {x z : Nat} (hz : 0 < z) : x < ((x / z + z) / 2 + 1) ^ 2 := by
  have hdiv : x < z * (x / z + 1) := Nat.lt_mul_div_succ x hz
  have hround : z + (x / z + 1) ≤ 2 * ((x / z + z) / 2 + 1) := by omega
  have hfour : 4 * x < 4 * ((x / z + z) / 2 + 1) ^ 2 := by
    calc 4 * x < 4 * (z * (x / z + 1)) := Nat.mul_lt_mul_of_pos_left hdiv (by decide)
      _ = 4 * z * (x / z + 1) := (Nat.mul_assoc 4 z _).symm
      _ ≤ (z + (x / z + 1)) ^ 2 := four_mul_le_sq_add z _
      _ ≤ (2 * ((x / z + z) / 2 + 1)) ^ 2 := Nat.pow_le_pow_left hround 2
      _ = 4 * ((x / z + z) / 2 + 1) ^ 2 := by ring
  exact Nat.lt_of_mul_lt_mul_left hfour

/-- A guess falls only from above the root. -/
theorem sqrt_lt_of_mean_lt {x z : Nat} (h : (x / z + z) / 2 < z) : Nat.sqrt x < z := by
  have hpos : 0 < z := Nat.zero_lt_of_lt h
  have hdiv : x / z < z := by omega
  rw [Nat.sqrt_lt, ← Nat.div_lt_iff_lt_mul hpos]
  exact hdiv

/-- The cofactor of a guess above the root is at most the root. -/
theorem div_le_sqrt {x z : Nat} (h : Nat.sqrt x < z) : x / z ≤ Nat.sqrt x := by
  have hpos : 0 < z := Nat.zero_lt_of_lt h
  refine Nat.le_of_lt_succ ((Nat.div_lt_iff_lt_mul hpos).mpr ?_)
  calc x < (Nat.sqrt x).succ * (Nat.sqrt x).succ := Nat.lt_succ_sqrt x
    _ ≤ (Nat.sqrt x).succ * z := Nat.mul_le_mul_left _ h

/-! ### What the loop holds -/

namespace Guesses

variable {x n z y : Nat}

theorem next_eq (h : Guesses x n z y) : y = (x / z + z) / 2 := by
  cases h with
  | start =>
      rcases Nat.eq_zero_or_pos x with rfl | hx
      · rfl
      · rw [Nat.div_self hx]
        omega
  | round => rfl

theorem le_radicand (h : Guesses x n z y) : z ≤ x := by
  induction h with
  | start => exact Nat.le_refl x
  | round _ hfall ih => exact hfall.le.trans ih

/-- No guess is below the root. -/
theorem lt_succ_sq (h : Guesses x n z y) : x < (z + 1) ^ 2 := by
  cases h with
  | start => nlinarith
  | round h hfall =>
      rw [h.next_eq]
      exact lt_succ_mean_sq (Nat.zero_lt_of_lt hfall)

/-- The guess at which the loop stops is not above the root either. -/
theorem sq_le (h : Guesses x n z y) (hstop : z ≤ y) : z ^ 2 ≤ x := by
  rcases Nat.eq_zero_or_pos z with rfl | hz
  · exact Nat.zero_le x
  · have hdiv : z ≤ x / z := by
      have := h.next_eq
      omega
    rw [Nat.pow_two]
    exact (Nat.le_div_iff_mul_le hz).mp hdiv

theorem sqrt_lt (h : Guesses x n z y) (hfall : y < z) : Nat.sqrt x < z :=
  sqrt_lt_of_mean_lt (h.next_eq ▸ hfall)

/-! ### The sums -/

/-- There is something to divide by. -/
theorem next_pos (h : Guesses x n z y) (hfall : y < z) : 0 < y := by
  have hx : 0 < x := (Nat.zero_lt_of_lt hfall).trans_le h.le_radicand
  have hroot : x < (y + 1) ^ 2 := (round h hfall).lt_succ_sq
  rcases Nat.eq_zero_or_pos y with rfl | hy
  · omega
  · exact hy

theorem next_le (h : Guesses x n z y) : y ≤ (x + 1) / 2 := by
  induction h with
  | start => omega
  | @round n z y h hfall ih =>
      obtain rfl | hy : y = 1 ∨ 2 ≤ y := by have := h.next_pos hfall; omega
      · rw [Nat.div_one]
      · have hdiv : x / y ≤ x / 2 := Nat.div_le_div_left hy (by decide)
        omega

/-- A guess and its cofactor add up to the radicand at most, as soon as that has three bits. -/
theorem sum_le (h : Guesses x n z y) (hfall : y < z) : x / y + y ≤ max x 4 := by
  have hnext : y ≤ (x + 1) / 2 := h.next_le
  obtain rfl | hy : y = 1 ∨ 2 ≤ y := by have := h.next_pos hfall; omega
  · have hroot : x < (1 + 1) ^ 2 := (round h hfall).lt_succ_sq
    rw [Nat.div_one]
    omega
  · have hdiv : x / y ≤ x / 2 := Nat.div_le_div_left hy (by decide)
    omega

/-! ### The rounds -/

/-- Each round halves what the guess is too large by. -/
theorem excess_le (h : Guesses x n z y) : (z - Nat.sqrt x) * 2 ^ n ≤ x := by
  induction h with
  | start =>
      rw [Nat.pow_zero, Nat.mul_one]
      exact Nat.sub_le _ _
  | @round n z y h hfall ih =>
      have hdiv : x / z ≤ Nat.sqrt x := div_le_sqrt (h.sqrt_lt hfall)
      have hhalf : (y - Nat.sqrt x) * 2 ≤ z - Nat.sqrt x := by
        have := h.next_eq
        omega
      calc (y - Nat.sqrt x) * 2 ^ (n + 1) = (y - Nat.sqrt x) * 2 * 2 ^ n := by ring
        _ ≤ (z - Nat.sqrt x) * 2 ^ n := Nat.mul_le_mul_right _ hhalf
        _ ≤ x := ih

/-- The loop goes round no more often than the radicand has bits. -/
theorem rounds_le {bits : Nat} (h : Guesses x n z y) (hx : x < 2 ^ bits) : n ≤ bits := by
  cases h with
  | start => exact Nat.zero_le bits
  | @round n z y h hfall =>
      have hexcess : 1 ≤ z - Nat.sqrt x := Nat.sub_pos_of_lt (h.sqrt_lt hfall)
      have hpow : 2 ^ n < 2 ^ bits := by
        calc 2 ^ n = 1 * 2 ^ n := (Nat.one_mul _).symm
          _ ≤ (z - Nat.sqrt x) * 2 ^ n := Nat.mul_le_mul_right _ hexcess
          _ ≤ x := h.excess_le
          _ < 2 ^ bits := hx
      exact (Nat.pow_lt_pow_iff_right (by decide)).mp hpow

/-- The loop stops, at its result. -/
theorem stops (h : Guesses x n z y) :
    ∃ m y', Guesses x m (newton x z y) y' ∧ newton x z y ≤ y' := by
  fun_induction newton x z y generalizing n with
  | case1 z y hfall ih => exact ih (h.round hfall)
  | case2 z y hstop => exact ⟨n, y, h, Nat.not_lt.mp hstop⟩

end Guesses

/-! ### The root -/

/-- A radicand below two is left by the loop as it is. -/
theorem rootNat_eq_newton (x : Nat) : rootNat x = newton x x (x / 2 + x % 2) := by
  rw [rootNat]
  split
  · rw [newton, if_neg (by omega)]
  · rfl

/-- **The root of an amount is exact.**  It is where the loop stops, which is after 256 rounds at
most; the first sum and those of all rounds are amounts, and nothing is divided by zero. -/
theorem Amount.root_exact (a : Amount) :
    (a.root.toNat ^ 2 ≤ a.toNat ∧ a.toNat < (a.root.toNat + 1) ^ 2) ∧
      (∃ n y, Guesses a.toNat n a.root.toNat y ∧ a.root.toNat ≤ y) ∧
      a.toNat / 2 + a.toNat % 2 < bound ∧
      ∀ n z y, Guesses a.toNat n z y →
        n ≤ 256 ∧ (y < z → 0 < y ∧ a.toNat / y + y < bound) := by
  have hlt : a.toNat < bound := a.toNat_lt
  have hfour : 4 < bound := by decide
  obtain ⟨n, y, hroot, hstop⟩ := (Guesses.start (x := a.toNat)).stops
  rw [← rootNat_eq_newton] at hroot hstop
  refine ⟨⟨hroot.sq_le hstop, hroot.lt_succ_sq⟩, ⟨n, y, hroot, hstop⟩, by omega, ?_⟩
  intro n z y h
  refine ⟨h.rounds_le hlt, fun hfall => ⟨h.next_pos hfall, ?_⟩⟩
  have := h.sum_le hfall
  omega

/-- The largest amount has a root of 128 bits, all of them set. -/
theorem Amount.root_exact_largest : (largest.root).toNat = 2 ^ 128 - 1 := by
  obtain ⟨⟨hle, hlt⟩, -⟩ := root_exact largest
  have hvalue : largest.toNat = (2 ^ 128) ^ 2 - 1 := by decide
  have hbelow : largest.root.toNat < 2 ^ 128 :=
    lt_of_pow_lt_pow_left₀ 2 (Nat.zero_le _) (hle.trans_lt (by rw [hvalue]; decide))
  have habove : 2 ^ 128 - 1 < largest.root.toNat + 1 :=
    lt_of_pow_lt_pow_left₀ 2 (Nat.zero_le _) (lt_of_le_of_lt (by rw [hvalue]; decide) hlt)
  omega

end PoolExchange
