import Mathlib.Data.Int.GCD
import Mathlib.Tactic.Linarith
import Mathlib.Tactic.Ring
import PoolExchange.Scale
import PoolExchange.Word

/-!
# Scaled — the curve at scaled depths, in numbers

A leg may be priced at depths that are scaled by a multiplier, and settled at the real ones.  Larger
depths leave the price where it is and make the slip smaller, so that the leg emits more than the
real depths would; only the fee makes up for it.  Scaled depths are also rounded down, and when the
input side loses more by it than the output side, that is in favour of the trader.

This module is about plain numbers.  `Scaled.Conservative` are the multipliers and floors at which no
leg emits more than the constant product of the real depths allows (`Scaled.emission_mul_le`); at all
others some leg does (`Scaled.exists_gains`).
-/

namespace PoolExchange.Scaled

/-- A depth scaled by `m` basis points. -/
def depth (m d : Nat) : Nat := m * d / fullBasisPoints

/-- What an input `x` emits at the scaled depths `X` and `Y`, with a fee of at least the floor. -/
def emission (m floor X x Y : Nat) : Nat :=
  if x * fullBasisPoints / (x + depth m X) < floor then
    x * depth m Y / (x + depth m X) -
      floor * (x * depth m Y) / (fullBasisPoints * (x + depth m X))
  else x * depth m X * depth m Y / (x + depth m X) ^ 2

/-- Everything is charged; or the real depths are a multiple of the scaled ones; or there is no floor
and the depths are doubled at most, up to the rounding; or the depths are reduced and the floor is at
least one half. -/
def Conservative (m floor : Nat) : Prop :=
  floor = fullBasisPoints ∨ m ∣ fullBasisPoints ∨
    (floor = 0 ∧ m ≤ fullBasisPoints + m.gcd fullBasisPoints) ∨
    (m < fullBasisPoints ∧ fullBasisPoints ≤ 2 * floor)

instance (m floor : Nat) : Decidable (Conservative m floor) :=
  inferInstanceAs (Decidable (_ ∨ _ ∨ _ ∨ _))

theorem full_pos : 0 < fullBasisPoints := by decide

variable {m floor X x Y : Nat}

theorem gcd_full_pos (m : Nat) : 0 < m.gcd fullBasisPoints := Nat.gcd_pos_of_pos_right _ full_pos

theorem gcd_full_le (m : Nat) : m.gcd fullBasisPoints ≤ fullBasisPoints :=
  Nat.gcd_le_right _ full_pos

theorem full_mul_depth_le (m d : Nat) : fullBasisPoints * depth m d ≤ m * d :=
  Nat.mul_div_le _ _

/-- Without a floor, no more than doubled depths are conservative. -/
theorem le_of_conservative (h : Conservative m 0) : m ≤ 2 * fullBasisPoints := by
  have hgcd := gcd_full_le m
  rcases h with hfull | hdvd | ⟨-, hle⟩ | ⟨hless, -⟩
  · cases hfull
  · have := Nat.le_of_dvd full_pos hdvd
    omega
  · omega
  · omega

/-- Depths that grow by a half, or a quarter, are conservative, and by a little more they are not. -/
example : Conservative 15000 0 ∧ Conservative 12500 0 ∧ ¬ Conservative 12501 0 := by decide

/-! ### What rounding leaves -/

/-- What is left over is short of a step by the common divisor or more. -/
theorem rest_le (m X : Nat) :
    m * X % fullBasisPoints ≤ fullBasisPoints - m.gcd fullBasisPoints := by
  have hrest : m.gcd fullBasisPoints ∣ m * X % fullBasisPoints :=
    (Nat.dvd_mod_iff (Nat.gcd_dvd_right m fullBasisPoints)).mpr
      ((Nat.gcd_dvd_left m fullBasisPoints).mul_right X)
  have hlt := Nat.mod_lt (m * X) full_pos
  have hstep : m.gcd fullBasisPoints ≤ fullBasisPoints - m * X % fullBasisPoints :=
    Nat.le_of_dvd (Nat.sub_pos_of_lt hlt) (Nat.dvd_sub (Nat.gcd_dvd_right _ _) hrest)
  omega

theorem mul_le_full_mul_depth (m X : Nat) :
    m * X + m.gcd fullBasisPoints ≤ fullBasisPoints * depth m X + fullBasisPoints := by
  have hdiv : fullBasisPoints * depth m X + m * X % fullBasisPoints = m * X :=
    Nat.div_add_mod _ _
  have hrest := rest_le m X
  have hle := gcd_full_le m
  omega

theorem two_mul_gcd_le (hm : 0 < m) (hdvd : ¬ m ∣ fullBasisPoints) :
    2 * m.gcd fullBasisPoints ≤ m := by
  obtain ⟨k, hk⟩ := Nat.gcd_dvd_left m fullBasisPoints
  match k with
  | 0 => omega
  | 1 =>
      rw [Nat.mul_one] at hk
      exact absurd (hk ▸ Nat.gcd_dvd_right m fullBasisPoints) hdvd
  | k + 2 =>
      calc 2 * m.gcd fullBasisPoints
          ≤ (k + 2) * m.gcd fullBasisPoints := Nat.mul_le_mul_right _ (Nat.le_add_left 2 k)
        _ = m := by rw [Nat.mul_comm, ← hk]

/-- Some depth leaves the most that can be left over. -/
theorem exists_rest (m : Nat) : ∃ r < fullBasisPoints,
    m * r % fullBasisPoints = fullBasisPoints - m.gcd fullBasisPoints := by
  rcases Nat.lt_or_eq_of_le (gcd_full_le m) with hlt | heq
  · obtain ⟨k, hk, hrest⟩ := Nat.exists_mul_mod_eq_gcd hlt
    have hgcd := gcd_full_pos m
    have hkpos : 0 < k := Nat.pos_of_ne_zero fun hz => by
      rw [hz, Nat.mul_zero, Nat.zero_mod] at hrest
      omega
    refine ⟨fullBasisPoints - k, Nat.sub_lt full_pos hkpos, ?_⟩
    -- the remainders of `k` and of `fullBasisPoints - k` add up to one step
    obtain ⟨t, ht⟩ : ∃ t, m = m * k / fullBasisPoints + t + 1 := by
      refine Nat.exists_eq_add_of_lt (Nat.div_lt_of_lt_mul ?_)
      rw [Nat.mul_comm fullBasisPoints]
      refine Nat.mul_lt_mul_of_pos_left hk (Nat.pos_of_ne_zero fun hz => ?_)
      rw [hz, Nat.zero_mul, Nat.zero_mod, Nat.gcd_zero_left] at hrest
      omega
    have hsplit : m * (fullBasisPoints - k) =
        fullBasisPoints - m.gcd fullBasisPoints + fullBasisPoints * t := by
      have hdiv := Nat.div_add_mod (m * k) fullBasisPoints
      have hsum : m * (fullBasisPoints - k) + m * k = m * fullBasisPoints := by
        rw [← Nat.mul_add, Nat.sub_add_cancel hk.le]
      have hwhole : m * fullBasisPoints =
          fullBasisPoints * (m * k / fullBasisPoints) + fullBasisPoints * t + fullBasisPoints := by
        conv_lhs => rw [ht]
        ring
      omega
    rw [hsplit, Nat.add_mul_mod_self_left]
    exact Nat.mod_eq_of_lt (by omega)
  · exact ⟨0, full_pos, by simp [heq]⟩

/-! ### Where no leg gains -/

/-- At the scaled depths no leg gains. -/
theorem emission_mul_scaled_le (m floor X x Y : Nat) :
    emission m floor X x Y * (x + depth m X) ≤ x * depth m Y := by
  rw [emission]
  split
  · exact (Nat.mul_le_mul_right _ (Nat.sub_le _ _)).trans (Nat.div_mul_le_self _ _)
  · generalize depth m X = X', depth m Y = Y'
    rcases Nat.eq_zero_or_pos (x + X') with hzero | hpos
    · rw [hzero, Nat.mul_zero]
      exact Nat.zero_le _
    · refine Nat.le_of_mul_le_mul_right ?_ hpos
      calc x * X' * Y' / (x + X') ^ 2 * (x + X') * (x + X')
          = x * X' * Y' / (x + X') ^ 2 * (x + X') ^ 2 := by ring
        _ ≤ x * X' * Y' := Nat.div_mul_le_self _ _
        _ = x * Y' * X' := by ring
        _ ≤ x * Y' * (x + X') := Nat.mul_le_mul_left _ (Nat.le_add_left _ _)

/-- **Depths of which the real ones are a multiple.**  What rounding takes off the input side is less
than what the input has to be scaled by. -/
theorem emission_mul_le_of_dvd (hdvd : m ∣ fullBasisPoints) (hx : 0 < x) :
    emission m floor X x Y * (x + X) ≤ x * Y := by
  have hm : 0 < m := Nat.pos_of_dvd_of_pos hdvd full_pos
  have hside : m * (x + X) ≤ fullBasisPoints * (x + depth m X) := by
    have hround := mul_le_full_mul_depth m X
    rw [Nat.gcd_eq_left hdvd] at hround
    obtain ⟨k, hk⟩ := Nat.exists_eq_add_of_le (Nat.le_of_dvd full_pos hdvd)
    obtain ⟨y, rfl⟩ := Nat.exists_eq_add_of_le' hx
    rw [hk] at hround ⊢
    nlinarith
  refine Nat.le_of_mul_le_mul_right ?_ hm
  calc emission m floor X x Y * (x + X) * m
      = emission m floor X x Y * (m * (x + X)) := by ring
    _ ≤ emission m floor X x Y * (fullBasisPoints * (x + depth m X)) := Nat.mul_le_mul_left _ hside
    _ = fullBasisPoints * (emission m floor X x Y * (x + depth m X)) := by ring
    _ ≤ fullBasisPoints * (x * depth m Y) :=
        Nat.mul_le_mul_left _ (emission_mul_scaled_le m floor X x Y)
    _ = x * (fullBasisPoints * depth m Y) := by ring
    _ ≤ x * (m * Y) := Nat.mul_le_mul_left _ (full_mul_depth_le m Y)
    _ = x * Y * m := by ring

/-- **With the fee of the curve**, depths may be doubled. -/
theorem nominal_mul_le (hm : 0 < m) (hle : m ≤ fullBasisPoints + m.gcd fullBasisPoints)
    (hx : 0 < x) :
    x * depth m X * depth m Y / (x + depth m X) ^ 2 * (x + X) ≤ x * Y := by
  -- the fee takes as much again as the input adds to the scaled depth
  have hside : depth m X * (m * (x + X)) ≤ fullBasisPoints * (x + depth m X) ^ 2 := by
    have hround := mul_le_full_mul_depth m X
    have hgcd := gcd_full_le m
    have hsum : m * (x + X) ≤ fullBasisPoints * (2 * x + depth m X) := by
      obtain ⟨y, rfl⟩ := Nat.exists_eq_add_of_le' hx
      nlinarith
    calc depth m X * (m * (x + X))
        ≤ depth m X * (fullBasisPoints * (2 * x + depth m X)) := Nat.mul_le_mul_left _ hsum
      _ ≤ fullBasisPoints * (x + depth m X) ^ 2 := by nlinarith [Nat.zero_le (x ^ 2)]
  have hpos : 0 < (x + depth m X) ^ 2 := pow_pos (Nat.add_pos_left hx _) 2
  generalize hemit : x * depth m X * depth m Y / (x + depth m X) ^ 2 = emit
  have hquot : emit * (x + depth m X) ^ 2 ≤ x * depth m X * depth m Y :=
    hemit ▸ Nat.div_mul_le_self _ _
  refine Nat.le_of_mul_le_mul_right ?_ (Nat.mul_pos hm (Nat.mul_pos full_pos hpos))
  calc emit * (x + X) * (m * (fullBasisPoints * (x + depth m X) ^ 2))
      = emit * (x + depth m X) ^ 2 * (fullBasisPoints * (m * (x + X))) := by ring
    _ ≤ x * depth m X * depth m Y * (fullBasisPoints * (m * (x + X))) :=
        Nat.mul_le_mul_right _ hquot
    _ = x * (fullBasisPoints * depth m Y) * (depth m X * (m * (x + X))) := by ring
    _ ≤ x * (m * Y) * (fullBasisPoints * (x + depth m X) ^ 2) :=
        Nat.mul_le_mul (Nat.mul_le_mul_left _ (full_mul_depth_le m Y)) hside
    _ = x * Y * (m * (fullBasisPoints * (x + depth m X) ^ 2)) := by ring

/-- At reduced depths, an emission without a fee is worth less than one unit of it above the
input. -/
theorem full_mul_lt (hm : m < fullBasisPoints) (hx : 0 < x)
    (hpaid : 0 < x * depth m Y / (x + depth m X)) :
    x * depth m Y / (x + depth m X) * (x + X) < x * Y + x * depth m Y / (x + depth m X) := by
  have hquot := Nat.div_mul_le_self (x * depth m Y) (x + depth m X)
  generalize x * depth m Y / (x + depth m X) = full at hpaid hquot ⊢
  obtain ⟨y, rfl⟩ := Nat.exists_eq_add_of_le' hx
  have hside : m * (y + X) + 1 ≤ fullBasisPoints * (y + 1 + depth m X) := by
    have hround := mul_le_full_mul_depth m X
    have hgcd := gcd_full_pos m
    nlinarith [Nat.mul_le_mul_right y hm.le]
  have hless : full * (y + X) < (y + 1) * Y := by
    refine Nat.lt_of_mul_lt_mul_left (a := m) ?_
    calc m * (full * (y + X))
        < m * (full * (y + X)) + full := Nat.lt_add_of_pos_right hpaid
      _ = full * (m * (y + X) + 1) := by ring
      _ ≤ full * (fullBasisPoints * (y + 1 + depth m X)) := Nat.mul_le_mul_left _ hside
      _ = fullBasisPoints * (full * (y + 1 + depth m X)) := by ring
      _ ≤ fullBasisPoints * ((y + 1) * depth m Y) := Nat.mul_le_mul_left _ hquot
      _ = (y + 1) * (fullBasisPoints * depth m Y) := by ring
      _ ≤ (y + 1) * (m * Y) := Nat.mul_le_mul_left _ (full_mul_depth_le m Y)
      _ = m * ((y + 1) * Y) := by ring
  calc full * (y + 1 + X) = full * (y + X) + full := by ring
    _ < (y + 1) * Y + full := Nat.add_lt_add_right hless _

/-- **With half of the emission charged**, depths may be reduced. -/
theorem floored_mul_le (hm : m < fullBasisPoints) (hhalf : fullBasisPoints ≤ 2 * floor)
    (hx : 0 < x) (hX : 0 < X) :
    (x * depth m Y / (x + depth m X) -
        floor * (x * depth m Y) / (fullBasisPoints * (x + depth m X))) * (x + X) ≤ x * Y := by
  have hpos : 0 < x + depth m X := Nat.add_pos_left hx _
  have hquot := Nat.div_mul_le_self (x * depth m Y) (x + depth m X)
  have hless := @full_mul_lt m X x Y hm hx
  generalize x * depth m Y / (x + depth m X) = full at hquot hless ⊢
  have hcharge : full / 2 ≤ floor * (x * depth m Y) / (fullBasisPoints * (x + depth m X)) := by
    rw [Nat.le_div_iff_mul_le (Nat.mul_pos full_pos hpos)]
    calc full / 2 * (fullBasisPoints * (x + depth m X))
        ≤ full / 2 * (2 * floor * (x + depth m X)) :=
          Nat.mul_le_mul_left _ (Nat.mul_le_mul_right _ hhalf)
      _ = floor * (full / 2 * 2 * (x + depth m X)) := by ring
      _ ≤ floor * (full * (x + depth m X)) :=
          Nat.mul_le_mul_left _ (Nat.mul_le_mul_right _ (Nat.div_mul_le_self _ _))
      _ ≤ floor * (x * depth m Y) := Nat.mul_le_mul_left _ hquot
  refine (Nat.mul_le_mul_right _ (Nat.sub_le_sub_left hcharge full)).trans ?_
  rcases Nat.eq_zero_or_pos full with hzero | hfull
  · simp [hzero]
  · have hless := hless hfull
    -- at most half of the emission and a half remains
    obtain ⟨k, hk⟩ : ∃ k, full - full / 2 = k + 1 := Nat.exists_eq_succ_of_ne_zero (by omega)
    have hhalves : 2 * k + 1 ≤ full := by omega
    obtain ⟨y, rfl⟩ := Nat.exists_eq_add_of_le' hx
    obtain ⟨z, rfl⟩ := Nat.exists_eq_add_of_le' hX
    rw [hk]
    nlinarith [Nat.mul_le_mul_right (y + z + 1) hhalves, Nat.zero_le (k * (y + z))]

/-- **No leg emits more than the constant product of the real depths allows.** -/
theorem emission_mul_le (hsafe : Conservative m floor) (hm : 0 < m) (hx : 0 < x) (hX : 0 < X)
    (hdepth : 0 < depth m X) :
    emission m floor X x Y * (x + X) ≤ x * Y := by
  rcases hsafe with rfl | hdvd | ⟨rfl, hle⟩ | ⟨hless, hhalf⟩
  · -- everything is charged, because no slip is as large as the floor
    have hslip : x * fullBasisPoints / (x + depth m X) < fullBasisPoints := by
      rw [Nat.div_lt_iff_lt_mul (Nat.add_pos_left hx _), Nat.mul_comm]
      exact Nat.mul_lt_mul_of_pos_left (Nat.lt_add_of_pos_right hdepth) full_pos
    rw [emission, if_pos hslip, Nat.mul_div_mul_left _ _ full_pos, Nat.sub_self, Nat.zero_mul]
    exact Nat.zero_le _
  · exact emission_mul_le_of_dvd hdvd hx
  · rw [emission, if_neg (Nat.not_lt_zero _)]
    exact nominal_mul_le hm hle hx
  · rw [emission]
    split
    · exact floored_mul_le hless hhalf hx hX
    · exact nominal_mul_le hm (hless.le.trans (Nat.le_add_right _ _)) hx

/-! ### Where some leg gains -/

/-- A leg that goes through and emits more than the constant product of the real depths allows, in
numbers that stop nowhere. -/
structure Gains (m floor X x Y : Nat) : Prop where
  input_pos : 0 < x
  input_le : x ≤ 2
  in_le : X ≤ 2 ^ 30
  out_le : Y ≤ 2 ^ 80
  depth_pos : 0 < depth m X
  depth_le : depth m X ≤ 2 ^ 80
  depth_out_le : depth m Y ≤ 2 ^ 130
  through : emission m floor X x Y < depth m Y
  gain : x * Y < emission m floor X x Y * (x + X)

theorem depth_zero (m : Nat) : depth m 0 = 0 := Nat.zero_div _

theorem Gains.in_pos (h : Gains m floor X x Y) : 0 < X := Nat.pos_of_ne_zero fun hzero => by
  have hdepth := h.depth_pos
  rw [hzero, depth_zero] at hdepth
  exact Nat.lt_irrefl 0 hdepth

theorem Gains.out_pos (h : Gains m floor X x Y) : 0 < Y := Nat.pos_of_ne_zero fun hzero => by
  have hthrough := h.through
  rw [hzero, depth_zero] at hthrough
  exact Nat.not_lt_zero _ hthrough

theorem depth_full_mul (m d : Nat) : depth m (fullBasisPoints * d) = m * d := by
  rw [depth, show m * (fullBasisPoints * d) = m * d * fullBasisPoints by ring]
  exact Nat.mul_div_cancel _ full_pos

theorem depth_le_mul {a b : Nat} (hm : m ≤ a) (hX : X ≤ fullBasisPoints * b) : depth m X ≤ a * b :=
  (Nat.div_le_div_right (Nat.mul_le_mul hm hX)).trans_eq (depth_full_mul a b)

/-- A slip of less than one basis point is below every floor, and a charge of less than one unit is
nothing. -/
theorem emission_uncharged (hfloor : 0 < floor)
    (hslip : x * fullBasisPoints < x + depth m X)
    (hcharge : floor * (x * depth m Y) < fullBasisPoints * (x + depth m X)) :
    emission m floor X x Y = x * depth m Y / (x + depth m X) := by
  rw [emission, Nat.div_eq_of_lt hslip, if_pos hfloor, Nat.div_eq_of_lt hcharge, Nat.sub_zero]

/-- Depths that are more than doubled: the fee of a single unit is too small by itself. -/
theorem gains_of_large (hword : m < wordBound 64) (hm : 2 * fullBasisPoints + 2 ≤ m) :
    Gains m 0 fullBasisPoints 1 (fullBasisPoints * (1 + m)) := by
  have hin : depth m fullBasisPoints = m := Nat.mul_div_cancel _ full_pos
  have hout := depth_full_mul m (1 + m)
  have hword : m ≤ 2 ^ 64 := hword.le
  obtain ⟨k, rfl⟩ := Nat.exists_eq_add_of_le' ((by decide : 1 ≤ 2 * fullBasisPoints + 2).trans hm)
  have hemit : emission (k + 1) 0 fullBasisPoints 1 (fullBasisPoints * (1 + (k + 1))) = k := by
    rw [emission, if_neg (Nat.not_lt_zero _), hin, hout]
    refine Nat.div_eq_of_lt_le ?_ ?_
    · nlinarith
    · nlinarith
  refine ⟨Nat.one_pos, by decide, by decide, ?_, ?_, ?_, ?_, ?_, ?_⟩
  · simp only [fullBasisPoints]
    omega
  · rw [hin]
    exact Nat.succ_pos k
  · rw [hin]
    omega
  · rw [hout]
    exact (Nat.mul_le_mul hword (Nat.add_le_add_left hword 1)).trans (by decide)
  · rw [hemit, hout]
    nlinarith
  · rw [hemit]
    nlinarith

/-- Some depth loses the most that rounding can take, however large it has to be. -/
theorem exists_depth (m t : Nat) : ∃ X < fullBasisPoints * (t + 1), m * t ≤ depth m X ∧
    m * X + m.gcd fullBasisPoints = fullBasisPoints * depth m X + fullBasisPoints := by
  obtain ⟨r, hr, hrest⟩ := exists_rest m
  have hgcd := gcd_full_le m
  refine ⟨r + fullBasisPoints * t, by rw [Nat.mul_succ]; omega, ?_, ?_⟩
  · rw [← depth_full_mul]
    exact Nat.div_le_div_right (Nat.mul_le_mul_left _ (Nat.le_add_left _ _))
  · have hmod : m * (r + fullBasisPoints * t) % fullBasisPoints =
        fullBasisPoints - m.gcd fullBasisPoints := by
      rw [show m * (r + fullBasisPoints * t) = m * r + fullBasisPoints * (m * t) by ring,
        Nat.add_mul_mod_self_left, hrest]
    have hdiv : fullBasisPoints * depth m (r + fullBasisPoints * t) +
        m * (r + fullBasisPoints * t) % fullBasisPoints = m * (r + fullBasisPoints * t) :=
      Nat.div_add_mod _ _
    omega

/-- Depths that are doubled at most: the fee of a single unit is too small where rounding takes the
most from the input side, and nothing from the output side. -/
theorem exists_gains_of_small (hlow : fullBasisPoints + m.gcd fullBasisPoints < m)
    (hhigh : m < 2 * fullBasisPoints + 2) : ∃ X x Y, Gains m 0 X x Y := by
  obtain ⟨X, hX, hdepth, hround⟩ := exists_depth m 1
  have hfull := full_mul_depth_le m X
  have hout := depth_full_mul m ((1 + depth m X) ^ 2)
  rw [Nat.mul_one] at hdepth
  have hdepth_le : depth m X ≤ 2 ^ 20 := (depth_le_mul hhigh.le hX.le).trans (by decide)
  have hemit : emission m 0 X 1 (fullBasisPoints * (1 + depth m X) ^ 2) = depth m X * m := by
    rw [emission, if_neg (Nat.not_lt_zero _), hout, Nat.one_mul, ← Nat.mul_assoc]
    exact Nat.mul_div_cancel _ (pow_pos (Nat.add_pos_left Nat.one_pos _) 2)
  refine ⟨X, 1, fullBasisPoints * (1 + depth m X) ^ 2, Nat.one_pos, by decide, ?_, ?_, ?_, ?_, ?_,
    ?_, ?_⟩
  · exact hX.le.trans (by decide)
  · exact (Nat.mul_le_mul_left _ (Nat.pow_le_pow_left (Nat.add_le_add_left hdepth_le 1) 2)).trans
      (by decide)
  · omega
  · exact hdepth_le.trans (by decide)
  · rw [hout]
    refine (Nat.mul_le_mul hhigh.le
      (Nat.pow_le_pow_left (Nat.add_le_add_left hdepth_le 1) 2)).trans (by decide)
  · rw [hemit, hout]
    nlinarith
  · rw [hemit]
    nlinarith

/-- Depths that grow lose more than one unit of the input side to rounding when it is one unit short
of twice the output side, and not much more. -/
theorem depth_of_short (hm : fullBasisPoints < m) (hX : X + 1 = 2 * fullBasisPoints ^ 2) :
    2 + depth m X ≤ 2 * (m * fullBasisPoints) ∧
      fullBasisPoints * (2 * (m * fullBasisPoints)) < fullBasisPoints * (2 + depth m X) + m := by
  have hparts : m * X + m = fullBasisPoints * (2 * (m * fullBasisPoints)) := by
    rw [← Nat.mul_succ, Nat.succ_eq_add_one, hX]
    ring
  constructor
  · have hfull := full_mul_depth_le m X
    have hless : fullBasisPoints * (depth m X + 1) <
        fullBasisPoints * (2 * (m * fullBasisPoints)) := by
      rw [Nat.mul_succ]
      omega
    have := Nat.lt_of_mul_lt_mul_left hless
    omega
  · have hround := mul_le_full_mul_depth m X
    have hgcd := gcd_full_pos m
    rw [Nat.mul_add]
    omega

/-- Larger depths under a floor: the share of a single unit that is charged is rounded down to
nothing. -/
theorem gains_of_floor (hword : m < wordBound 64) (hm : fullBasisPoints < m) (hfloor : 0 < floor)
    (hless : floor < fullBasisPoints) :
    Gains m floor (2 * fullBasisPoints ^ 2 - 1) 2 (fullBasisPoints ^ 2) := by
  have hword : m ≤ 2 ^ 64 := hword.le
  have hdepth_le : depth m (2 * fullBasisPoints ^ 2 - 1) ≤ 2 ^ 64 * (2 * fullBasisPoints) :=
    depth_le_mul hword (by decide)
  have hX : 2 * fullBasisPoints ^ 2 - 1 + 1 = 2 * fullBasisPoints ^ 2 := by decide
  have hX_le : 2 * fullBasisPoints ^ 2 - 1 ≤ 2 ^ 30 := by decide
  generalize 2 * fullBasisPoints ^ 2 - 1 = X at *
  have hout : depth m (fullBasisPoints ^ 2) = m * fullBasisPoints := by
    rw [Nat.pow_two, depth_full_mul]
  obtain ⟨hupper, hlower⟩ := depth_of_short hm hX
  have htwo : 2 ≤ fullBasisPoints := by decide
  have hfour : 2 * fullBasisPoints ≤ m * fullBasisPoints :=
    Nat.mul_le_mul_right _ (htwo.trans hm.le)
  have hm_le : m ≤ m * fullBasisPoints := Nat.le_mul_of_pos_right _ full_pos
  generalize m * fullBasisPoints = half at *
  have hhalf : half < 2 + depth m X := by
    refine Nat.lt_of_mul_lt_mul_left (a := fullBasisPoints) ?_
    have hself : half ≤ fullBasisPoints * half := Nat.le_mul_of_pos_left _ full_pos
    rw [Nat.mul_left_comm, Nat.two_mul] at hlower
    omega
  have hemit : emission m floor X 2 (fullBasisPoints ^ 2) = 1 := by
    rw [emission_uncharged hfloor, hout]
    · refine Nat.div_eq_of_lt_le ?_ ?_
      · omega
      · omega
    · omega
    · rw [hout]
      have hcharge := Nat.mul_le_mul_right (2 * half) hless
      rw [Nat.succ_mul] at hcharge
      omega
  refine ⟨by decide, Nat.le_refl _, hX_le, by decide, ?_, hdepth_le.trans (by decide), ?_, ?_, ?_⟩
  · omega
  · exact (depth_le_mul hword (Nat.pow_two fullBasisPoints).le).trans (by decide)
  · rw [hemit, hout]
    omega
  · rw [hemit]
    omega

/-- Reduced depths under a floor of less than one half: of two units nothing is charged either. -/
theorem exists_gains_of_reduced (hm : 0 < m) (hless : m < fullBasisPoints)
    (hdvd : ¬ m ∣ fullBasisPoints) (hfloor : 0 < floor) (hhalf : 2 * floor < fullBasisPoints) :
    ∃ X x Y, Gains m floor X x Y := by
  obtain ⟨X, hX, hdepth, hround⟩ := exists_depth m fullBasisPoints
  have hfull : fullBasisPoints ≤ depth m X := (Nat.le_mul_of_pos_left _ hm).trans hdepth
  have hdepth_le : depth m X ≤ fullBasisPoints * (fullBasisPoints + 1) :=
    depth_le_mul hless.le hX.le
  have hgcd := two_mul_gcd_le hm hdvd
  have hout : depth m (2 * X + 1) = 2 * depth m X + 2 := by
    refine Nat.div_eq_of_lt_le ?_ ?_
    · nlinarith
    · nlinarith
  have hemit : emission m floor X 1 (2 * X + 1) = 2 := by
    rw [emission_uncharged hfloor, hout]
    · refine Nat.div_eq_of_lt_le ?_ ?_
      · omega
      · omega
    · omega
    · rw [hout]
      nlinarith
  refine ⟨X, 1, 2 * X + 1, Nat.one_pos, by decide, ?_, ?_, ?_, ?_, ?_, ?_, ?_⟩
  · exact hX.le.trans (by decide)
  · have hsmall : fullBasisPoints * (fullBasisPoints + 1) ≤ 2 ^ 70 := by decide
    omega
  · omega
  · exact hdepth_le.trans (by decide)
  · have hsmall : fullBasisPoints * (fullBasisPoints + 1) ≤ 2 ^ 120 := by decide
    omega
  · rw [hemit, hout]
    omega
  · rw [hemit]
    omega

/-- **Where multiplier and floor are not conservative, some leg gains.** -/
theorem exists_gains (hm : 0 < m) (hword : m < wordBound 64) (hfloor : floor ≤ fullBasisPoints)
    (h : ¬ Conservative m floor) : ∃ X x Y, Gains m floor X x Y := by
  rw [Conservative, not_or, not_or, not_or, not_and, not_and] at h
  obtain ⟨hfull, hdvd, hfree, hhalf⟩ := h
  have hless := Nat.lt_of_le_of_ne hfloor hfull
  rcases Nat.eq_zero_or_pos floor with rfl | hpos
  · have hlow := Nat.not_le.mp (hfree rfl)
    rcases Nat.lt_or_ge m (2 * fullBasisPoints + 2) with hhigh | hlarge
    · exact exists_gains_of_small hlow hhigh
    · exact ⟨_, _, _, gains_of_large hword hlarge⟩
  · rcases Nat.lt_trichotomy m fullBasisPoints with hreduced | heq | hdeep
    · exact exists_gains_of_reduced hm hreduced hdvd hpos (Nat.not_le.mp (hhalf hreduced))
    · exact absurd (heq ▸ Nat.dvd_refl _) hdvd
    · exact ⟨_, _, _, gains_of_floor hword hdeep hpos hless⟩

end PoolExchange.Scaled
