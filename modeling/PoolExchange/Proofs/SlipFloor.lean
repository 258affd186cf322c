import PoolExchange.Proofs.ScaledDepth

/-!
# Curve — what a slip floor does to a price

A price divides what a trade without a fee would pay into an emission and a fee.  The nominal price
rounds the two parts down one by one, and a unit may be left over, which stays in the pool.  The
floored price rounds the fee down and pays all the rest.  So **the two parts add up to the whole, or
to one unit less at the nominal price; the slip is the larger one of the nominal slip and the floor;
and no floor lowers the fee** (`quote_decomposition`).

The unit left over is what a floored price may pay on top of the nominal one: **a floor pays more
exactly when it applies without raising the fee, and the nominal price leaves a unit over**
(`quote_emit_le_iff`).
-/

namespace PoolExchange.Curve

variable {inDepth x outDepth floor : Amount}

/-! ### The parts of a price -/

/-- Of two parts, each rounded down, at most one unit is left over. -/
theorem parts_add {X x Y : Nat} (hpos : 0 < x + X) :
    x * X * Y / (x + X) ^ 2 + x * x * Y / (x + X) ^ 2 = x * Y / (x + X) ∨
      x * X * Y / (x + X) ^ 2 + x * x * Y / (x + X) ^ 2 + 1 = x * Y / (x + X) := by
  have hwhole : x * Y / (x + X) = (x * X * Y + x * x * Y) / (x + X) ^ 2 := by
    rw [← Nat.mul_div_mul_right (x * Y) (x + X) hpos, Nat.pow_two]
    congr 1
    ring
  rw [hwhole, Nat.add_div (pow_pos hpos 2)]
  split
  · exact .inr rfl
  · exact .inl rfl

/-- The emission without a fee, in numbers. -/
theorem Exact.toNat_whole (h : Exact inDepth x outDepth 0) :
    (fullEmission inDepth x outDepth).toNat =
      x.toNat * outDepth.toNat / (x.toNat + inDepth.toNat) := by
  rw [fullEmission, Amount.toNat_div, Amount.toNat_add_of_lt h.sum]
  rcases Nat.eq_zero_or_pos x.toNat with hzero | hpos
  · rw [Amount.toNat_mul, hzero, Nat.zero_mul, Nat.zero_min]
  · refine congrArg (· / _) (Amount.toNat_mul_of_lt (lt_of_le_of_lt ?_ (h.fee (Nat.not_lt_zero _))))
    exact Nat.mul_le_mul_right _ (Nat.le_mul_of_pos_left _ hpos)

/-- **The nominal price** leaves at most one unit over. -/
theorem Exact.emission_add_fee (h : Exact inDepth x outDepth 0) :
    (Curve.emission inDepth x outDepth).toNat + (Curve.fee inDepth x outDepth).toNat =
        (fullEmission inDepth x outDepth).toNat ∨
      (Curve.emission inDepth x outDepth).toNat + (Curve.fee inDepth x outDepth).toNat + 1 =
        (fullEmission inDepth x outDepth).toNat := by
  rw [h.toNat_emission (Nat.not_lt_zero _), h.toNat_fee (Nat.not_lt_zero _), h.toNat_whole]
  rcases Nat.eq_zero_or_pos (x.toNat + inDepth.toNat) with hzero | hpos
  · rw [hzero]
    simp
  · exact parts_add hpos

/-- A floor charges no more than the whole. -/
theorem Exact.floorFee_le (h : Exact inDepth x outDepth floor) (hslip : slip inDepth x < floor)
    (hfloor : floor.toNat ≤ fullBasisPoints) :
    (floorFee inDepth x outDepth floor).toNat ≤ (fullEmission inDepth x outDepth).toNat := by
  rw [toNat_floorFee h.toFits hslip, toNat_fullEmission h.toFits hslip, Nat.min_eq_left hfloor,
    ← Nat.div_div_eq_div_mul]
  refine Nat.div_le_div_right (Nat.div_le_of_le_mul ?_)
  exact Nat.mul_le_mul_right _ hfloor

/-- **A floor that applies does not lower the fee.** -/
theorem Exact.fee_le_floorFee (h : Exact inDepth x outDepth floor)
    (hnominal : Exact inDepth x outDepth 0) (hslip : slip inDepth x < floor)
    (hfloor : floor.toNat ≤ fullBasisPoints) :
    (Curve.fee inDepth x outDepth).toNat ≤ (floorFee inDepth x outDepth floor).toNat := by
  rw [hnominal.toNat_fee (Nat.not_lt_zero _), toNat_floorFee h.toFits hslip,
    Nat.min_eq_left hfloor]
  rcases Nat.eq_zero_or_pos (x.toNat + inDepth.toNat) with hzero | hpos
  · simp [hzero]
  · -- the slip itself, not only the whole basis points of it, is below the floor
    have hless : x.toNat * fullBasisPoints ≤ floor.toNat * (x.toNat + inDepth.toNat) := by
      rw [Amount.lt_def, toNat_slip h.toFits, Nat.div_lt_iff_lt_mul hpos] at hslip
      exact hslip.le
    refine div_le_div_of_cross (Nat.mul_pos (by decide) hpos) ?_
    calc x.toNat * x.toNat * outDepth.toNat * (fullBasisPoints * (x.toNat + inDepth.toNat))
        = x.toNat * fullBasisPoints * (x.toNat * outDepth.toNat * (x.toNat + inDepth.toNat)) := by
          ring
      _ ≤ floor.toNat * (x.toNat + inDepth.toNat) *
            (x.toNat * outDepth.toNat * (x.toNat + inDepth.toNat)) := Nat.mul_le_mul_right _ hless
      _ = floor.toNat * (x.toNat * outDepth.toNat) * (x.toNat + inDepth.toNat) ^ 2 := by ring

/-! ### Quotes -/

/-- A floored price leaves nothing over. -/
theorem Exact.floored_add (h : Exact inDepth x outDepth floor) (hslip : slip inDepth x < floor)
    (hfloor : floor.toNat ≤ fullBasisPoints) :
    (quote inDepth x outDepth floor).emit.toNat + (quote inDepth x outDepth floor).fee.toNat =
      (fullEmission inDepth x outDepth).toNat := by
  rw [quote_of_lt hslip, Amount.toNat_sub]
  exact Nat.sub_add_cancel (h.floorFee_le hslip hfloor)

/-- The other sums and products of the price of something are no larger than these four. -/
theorem Exact.of_products (hx : x.toNat ≠ 0)
    (hsquare : (x.toNat + inDepth.toNat) ^ 2 < Amount.bound)
    (hemission : x.toNat * inDepth.toNat * outDepth.toNat < Amount.bound)
    (hfee : x.toNat * x.toNat * outDepth.toNat < Amount.bound)
    (hcharge : floor.toNat * x.toNat * outDepth.toNat < Amount.bound) :
    Exact inDepth x outDepth floor where
  sum := (Nat.le_self_pow (by decide) _).trans_lt hsquare
  parts := by
    rcases Nat.le_total x.toNat fullBasisPoints with hle | hle
    · exact (Nat.mul_le_mul_right _ hle).trans_lt (by decide)
    · calc x.toNat * fullBasisPoints ≤ x.toNat * x.toNat := Nat.mul_le_mul_left _ hle
        _ ≤ (x.toNat + inDepth.toNat) ^ 2 := by
            rw [Nat.pow_two]
            exact Nat.mul_le_mul (Nat.le_add_right _ _) (Nat.le_add_right _ _)
        _ < Amount.bound := hsquare
  gross _ :=
    (Nat.mul_le_mul_right _ (Nat.le_mul_of_pos_left _ (Nat.pos_of_ne_zero hx))).trans_lt hfee
  charge _ := by
    rw [Nat.mul_assoc] at hcharge
    exact (Nat.mul_le_mul_right _ (Nat.min_le_left _ _)).trans_lt hcharge
  denominator _ := hsquare
  emission _ := hemission
  fee _ := hfee

/-- **A price is divided into emission and fee**, up to one unit at the nominal price; its slip is
the floor or above, and its fee the nominal one or above. -/
theorem quote_decomposition (hx : x.toNat ≠ 0) (hfloor : floor.toNat ≤ fullBasisPoints)
    (hsquare : (x.toNat + inDepth.toNat) ^ 2 < Amount.bound)
    (hemission : x.toNat * inDepth.toNat * outDepth.toNat < Amount.bound)
    (hfee : x.toNat * x.toNat * outDepth.toNat < Amount.bound)
    (hcharge : floor.toNat * x.toNat * outDepth.toNat < Amount.bound) :
    let q := quote inDepth x outDepth floor
    let whole := (fullEmission inDepth x outDepth).toNat
    (q.emit.toNat + q.fee.toNat = whole ∨ q.emit.toNat + q.fee.toNat + 1 = whole) ∧
      (slip inDepth x < floor → q.emit.toNat + q.fee.toNat = whole) ∧
      q.slip = max floor (slip inDepth x) ∧
      fee inDepth x outDepth ≤ q.fee := by
  intro q whole
  have hexact := Exact.of_products hx hsquare hemission hfee hcharge
  have hnominal : Exact inDepth x outDepth 0 :=
    .of_products hx hsquare hemission hfee (by simp [Amount.bound_pos])
  by_cases hslip : slip inDepth x < floor
  · have hwhole : q.emit.toNat + q.fee.toNat = whole := hexact.floored_add hslip hfloor
    refine ⟨.inl hwhole, fun _ => hwhole, ?_, ?_⟩
    · show (quote inDepth x outDepth floor).slip = _
      rw [quote_of_lt hslip]
      exact (if_neg (Nat.not_le.mpr hslip)).symm
    · show fee inDepth x outDepth ≤ (quote inDepth x outDepth floor).fee
      rw [quote_of_lt hslip]
      exact hexact.fee_le_floorFee hnominal hslip hfloor
  · have hq : q = ⟨emission inDepth x outDepth, fee inDepth x outDepth, slip inDepth x⟩ :=
      quote_of_not_lt hslip
    rw [hq]
    exact ⟨hnominal.emission_add_fee, fun h => absurd h hslip,
      (if_pos (Nat.not_lt.mp hslip)).symm, Nat.le_refl _⟩

/-- A tenth of a coin, sold to a pool of a thousand under a floor of one basis point. -/
theorem quote_decomposition_tenth :
    let q := quote 100000000000 10000000 100000000000 1
    q = ⟨9998001, 999, 1⟩ ∧ slip 100000000000 10000000 < 1 ∧
      q.emit.toNat + q.fee.toNat = (fullEmission 100000000000 10000000 100000000000).toNat ∧
      q.slip = max 1 (slip 100000000000 10000000) ∧
      fee 100000000000 10000000 100000000000 ≤ q.fee := by
  intro q
  have hslip : slip 100000000000 10000000 < 1 := by decide +kernel
  obtain ⟨-, hwhole, hq, hfee⟩ := @quote_decomposition 100000000000 10000000 100000000000 1
    (by decide +kernel) (by decide +kernel) (by decide +kernel) (by decide +kernel)
    (by decide +kernel) (by decide +kernel)
  exact ⟨by decide +kernel, hslip, hwhole hslip, hq, hfee⟩

/-- **A floor does not pay more exactly when** it does not apply, or raises the fee, or the nominal
price leaves nothing over; otherwise it pays that unit more. -/
theorem quote_emit_le_iff (hfloor : floor.toNat ≤ fullBasisPoints)
    (hexact : Exact inDepth x outDepth floor) (hnominal : Exact inDepth x outDepth 0) :
    let q := quote inDepth x outDepth floor
    let nominal := quote inDepth x outDepth 0
    (q.emit ≤ nominal.emit ↔ ¬ slip inDepth x < floor ∨ nominal.fee < q.fee ∨
        nominal.emit.toNat + nominal.fee.toNat = (fullEmission inDepth x outDepth).toNat) ∧
      q.emit.toNat ≤ nominal.emit.toNat + 1 := by
  intro q nominal
  have hparts : nominal.emit.toNat + nominal.fee.toNat = (fullEmission inDepth x outDepth).toNat ∨
      nominal.emit.toNat + nominal.fee.toNat + 1 = (fullEmission inDepth x outDepth).toNat := by
    rw [show nominal = _ from quote_zero inDepth x outDepth]
    exact hnominal.emission_add_fee
  rw [Amount.le_def, Amount.lt_def (a := nominal.fee)]
  by_cases hslip : slip inDepth x < floor
  · have hwhole : q.emit.toNat + q.fee.toNat = (fullEmission inDepth x outDepth).toNat :=
      hexact.floored_add hslip hfloor
    have hcharged : nominal.fee.toNat ≤ q.fee.toNat := by
      rw [show nominal = _ from quote_zero inDepth x outDepth, show q = _ from quote_of_lt hslip]
      exact hexact.fee_le_floorFee hnominal hslip hfloor
    rw [or_iff_right (not_not.mpr hslip)]
    omega
  · have hsame : q = nominal := (quote_of_not_lt hslip).trans (quote_zero _ _ _).symm
    rw [hsame]
    exact ⟨⟨fun _ => .inl hslip, fun _ => Nat.le_refl _⟩, Nat.le_succ _⟩

/-- A twentieth of a coin is far below a floor of one basis point, which raises the fee of it. -/
theorem quote_emit_le_iff_raised :
    let q := quote 100000000000 5000000 100000000000 1
    let nominal := quote 100000000000 5000000 100000000000 0
    (1 : Amount).toNat ≤ fullBasisPoints ∧ Exact 100000000000 5000000 100000000000 1 ∧
      Exact 100000000000 5000000 100000000000 0 ∧ nominal.fee < q.fee ∧ q.emit ≤ nominal.emit := by
  intro q nominal
  have hfloor : (1 : Amount).toNat ≤ fullBasisPoints := by decide
  have hexact : Exact 100000000000 5000000 100000000000 1 := by
    refine .of_products ?_ ?_ ?_ ?_ ?_ <;> decide +kernel
  have hnominal : Exact 100000000000 5000000 100000000000 0 := by
    refine .of_products ?_ ?_ ?_ ?_ ?_ <;> decide +kernel
  have hraised : nominal.fee < q.fee := by decide +kernel
  exact ⟨hfloor, hexact, hnominal, hraised,
    (quote_emit_le_iff hfloor hexact hnominal).1.mpr (.inr (.inl hraised))⟩

/-- Where it does not raise the fee, a tenth of a coin pays one unit more. -/
theorem quote_emit_gt_tenth :
    (1 : Amount).toNat ≤ fullBasisPoints ∧ Exact 100000000000 10000000 100000000000 1 ∧
      Exact 100000000000 10000000 100000000000 0 ∧
      (quote 100000000000 10000000 100000000000 1).emit = 9998001 ∧
      (quote 100000000000 10000000 100000000000 0).emit = 9998000 ∧
      ¬ (quote 100000000000 10000000 100000000000 1).emit ≤
        (quote 100000000000 10000000 100000000000 0).emit := by
  refine ⟨by decide, ?_, ?_, by decide +kernel, by decide +kernel, by decide +kernel⟩
  · refine .of_products ?_ ?_ ?_ ?_ ?_ <;> decide +kernel
  · refine .of_products ?_ ?_ ?_ ?_ ?_ <;> decide +kernel

end PoolExchange.Curve
