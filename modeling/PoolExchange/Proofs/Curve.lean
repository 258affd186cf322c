import PoolExchange.Curve
import PoolExchange.Proofs.Share

/-!
# Curve — a trade never takes more than the constant product allows

With or without a floor, the emission of `x` is at most `x * Y / (x + X)`: what would leave the
product of the depths where it was.

An emission is one quotient of two numbers that stop at the largest amount (`emission_eq_clamp`).  So
**it is at most the exact quotient, except where both sides stop and the exact quotient is less than
one** (`Amount.Raised`); there it is one unit (`emissions_le_exact_iff`).
-/

namespace PoolExchange.Curve

variable {inDepth x outDepth floor : Amount}

theorem quote_of_lt (hslip : slip inDepth x < floor) : quote inDepth x outDepth floor =
    ⟨fullEmission inDepth x outDepth - floorFee inDepth x outDepth floor,
      floorFee inDepth x outDepth floor, floor⟩ := if_pos hslip

theorem quote_of_not_lt (hslip : ¬ slip inDepth x < floor) : quote inDepth x outDepth floor =
    ⟨emission inDepth x outDepth, fee inDepth x outDepth, slip inDepth x⟩ := if_neg hslip

/-- The nominal price is the one without a floor. -/
theorem quote_zero (inDepth x outDepth : Amount) : quote inDepth x outDepth 0 =
    ⟨emission inDepth x outDepth, fee inDepth x outDepth, slip inDepth x⟩ :=
  quote_of_not_lt (Nat.not_lt_zero _)

/-- An emission is one quotient of capped numbers. -/
theorem emission_eq_clamp (inDepth x outDepth : Amount) : emission inDepth x outDepth =
    .clamp (x.toNat * inDepth.toNat * outDepth.toNat) /
      .clamp ((x.toNat + inDepth.toNat) ^ 2) := by
  rw [Nat.pow_two]
  simp only [← Amount.clamp_mul_clamp, ← Amount.clamp_add_clamp, Amount.clamp_toNat]
  rfl

theorem fullEmission_eq_clamp (inDepth x outDepth : Amount) : fullEmission inDepth x outDepth =
    .clamp (x.toNat * outDepth.toNat) / .clamp (x.toNat + inDepth.toNat) := by
  simp only [← Amount.clamp_mul_clamp, ← Amount.clamp_add_clamp, Amount.clamp_toNat]
  rfl

theorem emission_mul_sq_le_of_lt (hfit : (x.toNat + inDepth.toNat) ^ 2 < Amount.bound) :
    (emission inDepth x outDepth).toNat * (x.toNat + inDepth.toNat) ^ 2 ≤
      x.toNat * inDepth.toNat * outDepth.toNat := by
  rw [emission_eq_clamp, Amount.toNat_clamp_div, if_pos hfit]
  exact (Nat.div_mul_le_self _ _).trans (min_le_left _ _)

/-- The emission is at most what the constant product allows. -/
theorem emission_mul_le (hfit : (x.toNat + inDepth.toNat) ^ 2 < Amount.bound) :
    (emission inDepth x outDepth).toNat * (x.toNat + inDepth.toNat) ≤
      x.toNat * outDepth.toNat := by
  rcases Nat.eq_zero_or_pos (x.toNat + inDepth.toNat) with hz | hpos
  · rw [hz, Nat.mul_zero]
    exact Nat.zero_le _
  · refine Nat.le_of_mul_le_mul_right ?_ hpos
    calc (emission inDepth x outDepth).toNat * (x.toNat + inDepth.toNat) *
          (x.toNat + inDepth.toNat)
        = (emission inDepth x outDepth).toNat * (x.toNat + inDepth.toNat) ^ 2 := by ring
      _ ≤ x.toNat * inDepth.toNat * outDepth.toNat := emission_mul_sq_le_of_lt hfit
      _ = x.toNat * outDepth.toNat * inDepth.toNat := by ring
      _ ≤ x.toNat * outDepth.toNat * (x.toNat + inDepth.toNat) :=
          Nat.mul_le_mul_left _ (Nat.le_add_left _ _)

theorem fullEmission_mul_le (hfit : x.toNat + inDepth.toNat < Amount.bound) :
    (fullEmission inDepth x outDepth).toNat * (x.toNat + inDepth.toNat) ≤
      x.toNat * outDepth.toNat := by
  rw [fullEmission, Amount.toNat_div, Amount.toNat_add_of_lt hfit]
  exact (Nat.div_mul_le_self _ _).trans (Amount.toNat_mul_le x outDepth)

/-- **No quote beats the constant product**, whatever the floor. -/
theorem quote_mul_le (floor : Amount) (hfit : (x.toNat + inDepth.toNat) ^ 2 < Amount.bound) :
    (quote inDepth x outDepth floor).emit.toNat * (x.toNat + inDepth.toNat) ≤
      x.toNat * outDepth.toNat := by
  simp only [quote]
  split
  · have hsum : x.toNat + inDepth.toNat < Amount.bound :=
      Nat.lt_of_le_of_lt (Nat.le_self_pow (by decide) _) hfit
    refine le_trans (Nat.mul_le_mul_right _ ?_) (fullEmission_mul_le hsum)
    rw [Amount.toNat_sub]
    exact Nat.sub_le _ _
  · exact emission_mul_le hfit

/-- The product of two depths never falls when one grows by `x` and the other shrinks by at most
what the constant product allows. -/
theorem product_le_of_mul_le {inDepth x outDepth emit : Nat} (hle : emit ≤ outDepth)
    (h : emit * (x + inDepth) ≤ x * outDepth) :
    inDepth * outDepth ≤ (inDepth + x) * (outDepth - emit) := by
  obtain ⟨rest, rfl⟩ := Nat.exists_eq_add_of_le hle
  rw [Nat.add_sub_cancel_left]
  nlinarith [h]

/-! ### Where the arithmetic stops -/

/-- **Emissions are at most the exact quotients, except where these are raised**, and there they are
one unit. -/
theorem emissions_le_exact_iff (inDepth x outDepth : Amount) :
    let nominal := x.toNat * inDepth.toNat * outDepth.toNat
    let gross := x.toNat * outDepth.toNat
    let depth := x.toNat + inDepth.toNat
    ((emission inDepth x outDepth).toNat ≤ nominal / depth ^ 2 ↔
        ¬ Amount.Raised nominal (depth ^ 2)) ∧
      (emission inDepth x outDepth).toNat ≤ max (nominal / depth ^ 2) 1 ∧
      ((fullEmission inDepth x outDepth).toNat ≤ gross / depth ↔ ¬ Amount.Raised gross depth) ∧
      (fullEmission inDepth x outDepth).toNat ≤ max (gross / depth) 1 := by
  intro nominal gross depth
  rw [emission_eq_clamp, fullEmission_eq_clamp]
  exact ⟨Amount.clamp_div_le_iff _ _, Amount.clamp_div_le_max _ _, Amount.clamp_div_le_iff _ _,
    Amount.clamp_div_le_max _ _⟩

/-- The largest amount, sold to a pool of as much for the last unit of its other side, takes that
unit; the exact quotients are a quarter and a half. -/
theorem emissions_raised_largest :
    let depth := Amount.largest.toNat + Amount.largest.toNat
    emission .largest .largest 1 = 1 ∧ fullEmission .largest .largest 1 = 1 ∧
      ¬ (emission .largest .largest 1).toNat ≤
        Amount.largest.toNat * Amount.largest.toNat * (1 : Amount).toNat / depth ^ 2 ∧
      ¬ (fullEmission .largest .largest 1).toNat ≤
        Amount.largest.toNat * (1 : Amount).toNat / depth := by
  decide +kernel

/-- An emission is at most what the curve pays, or a single unit where the arithmetic stops at the
largest amount. -/
theorem emission_mul_sq_le (inDepth x outDepth : Amount) :
    (emission inDepth x outDepth).toNat ≤ 1 ∨ 0 < x.toNat + inDepth.toNat ∧
      (emission inDepth x outDepth).toNat * (x.toNat + inDepth.toNat) ^ 2 ≤
        x.toNat * inDepth.toNat * outDepth.toNat := by
  rw [emission_eq_clamp]
  rcases le_max_iff.mp (Amount.clamp_div_le_max (x.toNat * inDepth.toNat * outDepth.toNat)
    ((x.toNat + inDepth.toNat) ^ 2)) with hle | hone
  · rcases Nat.eq_zero_or_pos (x.toNat + inDepth.toNat) with hz | hpos
    · rw [hz, Nat.zero_pow Nat.two_pos, Nat.div_zero] at hle
      exact .inl (by rw [hz]; exact hle.trans (Nat.zero_le 1))
    · exact .inr ⟨hpos, (Nat.mul_le_mul_right _ hle).trans (Nat.div_mul_le_self _ _)⟩
  · exact .inl hone

/-- **An emission is at most a quarter of the output side**, or a single unit where the
arithmetic stops at the largest amount. -/
theorem emission_quarter (inDepth x outDepth : Amount) :
    (emission inDepth x outDepth).toNat ≤ 1 ∨
      4 * (emission inDepth x outDepth).toNat ≤ outDepth.toNat := by
  rcases emission_mul_sq_le inDepth x outDepth with hone | ⟨hpos, hle⟩
  · exact .inl hone
  · have hsquare : 4 * (x.toNat * inDepth.toNat) ≤ (x.toNat + inDepth.toNat) ^ 2 := by
      nlinarith [sq_nonneg ((x.toNat : ℤ) - inDepth.toNat)]
    refine .inr (Nat.le_of_mul_le_mul_right ?_ (pow_pos hpos 2))
    calc 4 * (emission inDepth x outDepth).toNat * (x.toNat + inDepth.toNat) ^ 2
        ≤ 4 * (x.toNat * inDepth.toNat * outDepth.toNat) := by
          rw [Nat.mul_assoc]
          exact Nat.mul_le_mul_left 4 hle
      _ = outDepth.toNat * (4 * (x.toNat * inDepth.toNat)) := by ring
      _ ≤ outDepth.toNat * (x.toNat + inDepth.toNat) ^ 2 := Nat.mul_le_mul_left _ hsquare

/-- **No trade takes more than there is.** -/
theorem emission_le (inDepth x outDepth : Amount) :
    (emission inDepth x outDepth).toNat ≤ outDepth.toNat := by
  rcases Nat.eq_zero_or_pos outDepth.toNat with hy | hy
  · rw [emission, Amount.toNat_div, Amount.toNat_mul, hy, Nat.mul_zero, Nat.zero_min, Nat.zero_div]
  · rcases emission_quarter inDepth x outDepth with h | h
    · exact h.trans hy
    · omega

theorem fullEmission_le (inDepth x outDepth : Amount) :
    (fullEmission inDepth x outDepth).toNat ≤ outDepth.toNat := by
  rw [fullEmission, Amount.toNat_div]
  refine Nat.div_le_of_le_mul ?_
  exact (Amount.toNat_mul_le _ _).trans (Nat.mul_le_mul_right _ (Amount.le_toNat_add x inDepth))

theorem quote_le (inDepth x outDepth floor : Amount) :
    (quote inDepth x outDepth floor).emit.toNat ≤ outDepth.toNat := by
  simp only [quote]
  split
  · refine le_trans ?_ (fullEmission_le inDepth x outDepth)
    rw [Amount.toNat_sub]
    exact Nat.sub_le _ _
  · exact emission_le inDepth x outDepth

end PoolExchange.Curve
