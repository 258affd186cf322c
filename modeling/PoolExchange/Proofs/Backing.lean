import PoolExchange.Proofs.Soundness

/-!
# Leg — what is paid out is backed by the balance

A leg takes its emission out of the real balance of its output side, and the subtraction stops at
zero.  The leg is *backed* when the subtraction is exact (`Leg.Backed`).

At the real balances every leg is backed, because a leg refuses to emit the whole depth that it is
priced at (`backed_of_real`).  At scaled depths that refusal says nothing about the balance.  What
bounds the emission there is the curve: at a slip of `s`, the part of the output depth that is
emitted is `s * (1 - s)`, where `s` is at least the floor (`Curve.quote_peak`).  **So the legs are
backed exactly when the multiplier times the largest such part is at most one**
(`backed_iff_peak`); under floors of at most one half, when the depths are at most quadrupled.
-/

namespace PoolExchange

/-! ### The largest part of a depth that is emitted -/

namespace Curve

/-- The largest value of `s * (1 - s)` over the slips `s` from `floor` on, in units of one basis
point of one basis point. -/
def peak (floor : Nat) : Nat :=
  let s := max floor (fullBasisPoints / 2)
  s * (fullBasisPoints - s)

/-- No sum or product of the slip, and of the fee where the floor is charged, stops at the largest
amount. -/
structure Fits (inDepth x outDepth floor : Amount) : Prop where
  sum : x.toNat + inDepth.toNat < Amount.bound
  parts : x.toNat * fullBasisPoints < Amount.bound
  gross : slip inDepth x < floor → x.toNat * outDepth.toNat < Amount.bound
  charge : slip inDepth x < floor →
    min floor.toNat fullBasisPoints * (x.toNat * outDepth.toNat) < Amount.bound

theorem fits_iff {inDepth x outDepth floor : Amount} : Fits inDepth x outDepth floor ↔
    (x.toNat + inDepth.toNat < Amount.bound ∧ x.toNat * fullBasisPoints < Amount.bound) ∧
      (slip inDepth x < floor → x.toNat * outDepth.toNat < Amount.bound ∧
        min floor.toNat fullBasisPoints * (x.toNat * outDepth.toNat) < Amount.bound) :=
  ⟨fun h => ⟨⟨h.sum, h.parts⟩, fun hf => ⟨h.gross hf, h.charge hf⟩⟩,
    fun h => ⟨h.1.1, h.1.2, fun hf => (h.2 hf).1, fun hf => (h.2 hf).2⟩⟩

instance (inDepth x outDepth floor : Amount) : Decidable (Fits inDepth x outDepth floor) :=
  decidable_of_iff' _ fits_iff

theorem toNat_full : full.toNat = fullBasisPoints := by decide

/-- A part `x` of `x + rest` that is at least the floor. -/
theorem mul_le_peak {floor x rest : Nat} (h : floor * (x + rest) ≤ x * fullBasisPoints) :
    x * rest * fullBasisPoints ^ 2 ≤ peak floor * (x + rest) ^ 2 := by
  rcases Nat.le_total floor (fullBasisPoints / 2) with hlow | hhigh
  · -- the top of the parabola is among the slips
    rw [peak, max_eq_right hlow]
    simp only [fullBasisPoints]
    nlinarith [sq_nonneg ((x : ℤ) - rest)]
  · rw [peak, max_eq_left hhigh]
    rcases Nat.lt_or_ge fullBasisPoints floor with hover | hle
    · have hx : x = 0 := by
        by_contra hpos
        have := Nat.mul_lt_mul_of_pos_left hover (Nat.pos_of_ne_zero hpos)
        nlinarith
      rw [hx, Nat.zero_mul, Nat.zero_mul]
      exact Nat.zero_le _
    · -- right of its top the parabola falls
      obtain ⟨k, hk⟩ := Nat.exists_eq_add_of_le hle
      have hk' : k ≤ floor := by
        have : fullBasisPoints = 2 * (fullBasisPoints / 2) := by decide
        omega
      rw [hk] at h ⊢
      rw [Nat.add_sub_cancel_left]
      have hleft : floor * rest ≤ x * k := by nlinarith
      have hright : k * rest ≤ floor * x := by nlinarith
      zify at hleft hright ⊢
      nlinarith [mul_nonneg (sub_nonneg.mpr hleft) (sub_nonneg.mpr hright)]

theorem floor_mul_le_peak (floor : Nat) : floor * (fullBasisPoints - floor) ≤ peak floor := by
  rcases Nat.le_total floor fullBasisPoints with hle | hover
  · have h := @mul_le_peak floor floor (fullBasisPoints - floor)
      (by rw [Nat.add_sub_cancel' hle])
    rw [Nat.add_sub_cancel' hle] at h
    exact Nat.le_of_mul_le_mul_right h (by decide)
  · rw [Nat.sub_eq_zero_of_le hover]
    exact Nat.zero_le _

theorem peak_of_le {floor : Nat} (h : fullBasisPoints ≤ floor) : peak floor = 0 := by
  have hhalf : fullBasisPoints / 2 ≤ floor := (by decide : _ ≤ fullBasisPoints).trans h
  rw [peak, max_eq_left hhalf, Nat.sub_eq_zero_of_le h, Nat.mul_zero]

theorem peak_toNat_clamp (floor : Nat) : peak (Amount.clamp floor).toNat = peak floor := by
  rcases Nat.lt_or_ge floor Amount.bound with hlt | hge
  · rw [Amount.toNat_clamp_of_lt hlt]
  · have hlargest : fullBasisPoints ≤ Amount.bound - 1 := by decide
    rw [Amount.toNat_clamp, peak_of_le, peak_of_le]
    · omega
    · omega

/-- Whatever the floor, no more than a quarter. -/
theorem four_mul_peak_le (floor : Nat) : 4 * peak floor ≤ fullBasisPoints ^ 2 := by
  rw [peak]
  rcases Nat.le_total (max floor (fullBasisPoints / 2)) fullBasisPoints with hle | hover
  · obtain ⟨k, hk⟩ := Nat.exists_eq_add_of_le hle
    generalize max floor (fullBasisPoints / 2) = s at *
    rw [hk, Nat.add_sub_cancel_left]
    nlinarith [sq_nonneg ((s : ℤ) - k)]
  · rw [Nat.sub_eq_zero_of_le hover]
    exact Nat.zero_le _

/-- What a slip below the floor leaves, charged at the floor. -/
theorem rest_mul_le_peak {floor part depth : Nat} (h : part ≤ floor * depth) :
    (fullBasisPoints - min floor fullBasisPoints) * part ≤ peak floor * depth := by
  rcases Nat.le_total floor fullBasisPoints with hle | hle
  · rw [min_eq_left hle]
    calc (fullBasisPoints - floor) * part
        ≤ (fullBasisPoints - floor) * (floor * depth) := Nat.mul_le_mul_left _ h
      _ = floor * (fullBasisPoints - floor) * depth := by ring
      _ ≤ peak floor * depth := Nat.mul_le_mul_right _ (floor_mul_le_peak floor)
  · rw [min_eq_right hle, Nat.sub_self, Nat.zero_mul]
    exact Nat.zero_le _

/-- A quotient less its share, both rounded down, is less than one above the exact difference. -/
theorem div_sub_div_mul_lt (gross : Nat) {part total depth : Nat} (hdepth : 0 < depth)
    (htotal : 0 < total) (hpart : part ≤ total) :
    (gross / depth - part * gross / (total * depth)) * (total * depth) <
      (total - part) * gross + total * depth := by
  have hpos : 0 < total * depth := Nat.mul_pos htotal hdepth
  have hwhole := Nat.div_mul_le_self gross depth
  have hshare := Nat.lt_mul_div_succ (part * gross) hpos
  generalize gross / depth = whole at *
  generalize part * gross / (total * depth) = share at *
  rcases Nat.le_total whole share with hle | hle
  · rw [Nat.sub_eq_zero_of_le hle, Nat.zero_mul]
    exact Nat.lt_add_left _ hpos
  · zify [hle, hpart] at *
    nlinarith

variable {inDepth x outDepth floor : Amount}

/-- At a slip of the floor or more, the emission is at most the peak of the depth, or a single unit
where the arithmetic stops at the largest amount. -/
theorem emission_peak (hsum : x.toNat + inDepth.toNat < Amount.bound)
    (h : ¬ slip inDepth x < floor) :
    (emission inDepth x outDepth).toNat ≤ 1 ∨
      (emission inDepth x outDepth).toNat * fullBasisPoints ^ 2 ≤
        peak floor.toNat * outDepth.toNat := by
  rcases emission_mul_sq_le inDepth x outDepth with hone | ⟨hpos, hle⟩
  · exact .inl hone
  · have hslip : floor.toNat * (x.toNat + inDepth.toNat) ≤ x.toNat * fullBasisPoints := by
      rw [Amount.lt_def, slip, Amount.toNat_div, Amount.toNat_add_of_lt hsum, Nat.not_lt,
        Nat.le_div_iff_mul_le hpos] at h
      exact h.trans ((Amount.toNat_mul_le _ _).trans_eq (by rw [toNat_full]))
    refine .inr (Nat.le_of_mul_le_mul_right ?_ (pow_pos hpos 2))
    calc (emission inDepth x outDepth).toNat * fullBasisPoints ^ 2 *
          (x.toNat + inDepth.toNat) ^ 2
        = (emission inDepth x outDepth).toNat * (x.toNat + inDepth.toNat) ^ 2 *
            fullBasisPoints ^ 2 := by ring
      _ ≤ x.toNat * inDepth.toNat * outDepth.toNat * fullBasisPoints ^ 2 :=
          Nat.mul_le_mul_right _ hle
      _ = x.toNat * inDepth.toNat * fullBasisPoints ^ 2 * outDepth.toNat := by ring
      _ ≤ peak floor.toNat * (x.toNat + inDepth.toNat) ^ 2 * outDepth.toNat :=
          Nat.mul_le_mul_right _ (mul_le_peak hslip)
      _ = peak floor.toNat * outDepth.toNat * (x.toNat + inDepth.toNat) ^ 2 := by ring

theorem toNat_slip (hfit : Fits inDepth x outDepth floor) :
    (slip inDepth x).toNat = x.toNat * fullBasisPoints / (x.toNat + inDepth.toNat) := by
  rw [slip, Amount.toNat_div, Amount.toNat_add_of_lt hfit.sum, Amount.toNat_mul_of_lt, toNat_full]
  rw [toNat_full]
  exact hfit.parts

theorem toNat_fullEmission (hfit : Fits inDepth x outDepth floor) (h : slip inDepth x < floor) :
    (fullEmission inDepth x outDepth).toNat =
      x.toNat * outDepth.toNat / (x.toNat + inDepth.toNat) := by
  rw [fullEmission, Amount.toNat_div, Amount.toNat_mul_of_lt (hfit.gross h),
    Amount.toNat_add_of_lt hfit.sum]

theorem toNat_floorFee (hfit : Fits inDepth x outDepth floor) (h : slip inDepth x < floor) :
    (floorFee inDepth x outDepth floor).toNat =
      min floor.toNat fullBasisPoints * (x.toNat * outDepth.toNat) /
        (fullBasisPoints * (x.toNat + inDepth.toNat)) := by
  have hgross := Amount.toNat_mul_of_lt (hfit.gross h)
  rw [floorFee, Amount.toNat_div, Amount.toNat_add_of_lt hfit.sum,
    Amount.toNat_cappedShare_of_lt, hgross, toNat_full, Nat.div_div_eq_div_mul]
  rw [hgross, toNat_full]
  exact hfit.charge h

/-- Below the floor, the emission is less than one unit above the part of the depth that a slip of
the floor emits. -/
theorem floored_peak (hfit : Fits inDepth x outDepth floor) (h : slip inDepth x < floor) :
    (fullEmission inDepth x outDepth - floorFee inDepth x outDepth floor).toNat *
        fullBasisPoints ^ 2 <
      peak floor.toNat * outDepth.toNat + fullBasisPoints ^ 2 := by
  rw [Amount.toNat_sub, toNat_fullEmission hfit h, toNat_floorFee hfit h]
  generalize hdepth : x.toNat + inDepth.toNat = depth at *
  rcases Nat.eq_zero_or_pos depth with rfl | hpos
  · rw [Nat.div_zero, Nat.zero_sub, Nat.zero_mul]
    exact Nat.lt_add_left _ (by decide)
  · have hslip : x.toNat * fullBasisPoints < floor.toNat * depth := by
      rwa [Amount.lt_def, toNat_slip hfit, hdepth, Nat.div_lt_iff_lt_mul hpos] at h
    have hless := div_sub_div_mul_lt (x.toNat * outDepth.toNat) hpos
      (show 0 < fullBasisPoints by decide) (Nat.min_le_right floor.toNat fullBasisPoints)
    have hrest := rest_mul_le_peak hslip.le
    generalize x.toNat * outDepth.toNat / depth - min floor.toNat fullBasisPoints *
      (x.toNat * outDepth.toNat) / (fullBasisPoints * depth) = emit at *
    refine Nat.lt_of_mul_lt_mul_right (a := depth) ?_
    calc emit * fullBasisPoints ^ 2 * depth
        = emit * (fullBasisPoints * depth) * fullBasisPoints := by ring
      _ < ((fullBasisPoints - min floor.toNat fullBasisPoints) * (x.toNat * outDepth.toNat) +
            fullBasisPoints * depth) * fullBasisPoints :=
          Nat.mul_lt_mul_of_pos_right hless (by decide)
      _ = (fullBasisPoints - min floor.toNat fullBasisPoints) * (x.toNat * fullBasisPoints) *
            outDepth.toNat + fullBasisPoints ^ 2 * depth := by ring
      _ ≤ peak floor.toNat * depth * outDepth.toNat + fullBasisPoints ^ 2 * depth :=
          Nat.add_le_add_right (Nat.mul_le_mul_right _ hrest) _
      _ = (peak floor.toNat * outDepth.toNat + fullBasisPoints ^ 2) * depth := by ring

/-- **What a quote emits is at most the peak of the depth, and less than one unit more.** -/
theorem quote_peak (hfit : floor.toNat = 0 ∨ Fits inDepth x outDepth floor) :
    (quote inDepth x outDepth floor).emit.toNat ≤ 1 ∨
      (quote inDepth x outDepth floor).emit.toNat * fullBasisPoints ^ 2 <
        peak floor.toNat * outDepth.toNat + fullBasisPoints ^ 2 := by
  simp only [quote]
  split
  · rename_i h
    rcases hfit with hzero | hfit
    · rw [Amount.lt_def, hzero] at h
      exact absurd h (Nat.not_lt_zero _)
    · exact .inr (floored_peak hfit h)
  · rename_i h
    rcases hfit with hzero | hfit
    · -- without a floor the peak is a quarter
      rw [hzero]
      refine (emission_quarter inDepth x outDepth).imp_right fun hquarter => ?_
      have hpeak : peak 0 = 25000000 := by decide
      have hfull : fullBasisPoints ^ 2 = 100000000 := by decide
      rw [hpeak, hfull]
      show (emission inDepth x outDepth).toNat * 100000000 < _
      omega
    · exact (emission_peak hfit.sum h).imp_right fun hle =>
        Nat.lt_of_le_of_lt hle (Nat.lt_add_of_pos_right (by decide))

end Curve

/-! ### Legs -/

namespace Leg

/-- The balance of the output side pays the whole emission. -/
def Backed (pool : Pool) (leg : Leg) : Prop :=
  (depths leg.pool leg.source).2.toNat + leg.emit.toNat = (depths pool leg.source).2.toNat

/-- At scaled depths, no part of the price stops at the largest amount; without a floor it may. -/
def Fits (pool : Pool) (source target : Asset) (amount : Amount) (config : Config) : Prop :=
  isVirtual source target pool = true → slipFloor source target config ≠ 0 →
    Curve.Fits (pricedDepths pool source target config).1 amount
      (pricedDepths pool source target config).2 (.clamp (slipFloor source target config))

instance (pool : Pool) (source target : Asset) (amount : Amount) (config : Config) :
    Decidable (Fits pool source target amount config) :=
  inferInstanceAs (Decidable (_ → _ → _))

variable {pool : Pool} {source target : Asset} {amount : Amount} {config : Config} {leg : Leg}

/-- **A leg is backed when it emits no more than there is.** -/
theorem backed_iff (h : trade pool source target amount config = .ok leg)
    (htarget : target.isSynthetic = false) :
    Backed pool leg ↔ leg.emit.toNat ≤ (depths pool source).2.toNat := by
  obtain ⟨-, -, -, -, -, -, hpool, hsource, -⟩ := trade_inv h
  have hout : (depths leg.pool source).2 = (depths pool source).2 - leg.emit := by
    rw [hpool, settle, depths, depths, htarget]
    split <;> rfl
  rw [Backed, hsource, hout, Amount.toNat_sub]
  omega

theorem backed_of_real (h : trade pool source target amount config = .ok leg)
    (htarget : target.isSynthetic = false) (hreal : isVirtual source target pool = false) :
    Backed pool leg := by
  obtain ⟨-, -, -, -, -, hemit, -⟩ := trade_inv h
  rw [pricedDepths, if_neg (by simp [hreal])] at hemit
  exact (backed_iff h htarget).mpr (Nat.le_of_lt hemit)

/-- The output depth of a scaled price, against the balance. -/
theorem pricedDepths_snd_mul_le (hscaled : isVirtual source target pool = true) :
    (pricedDepths pool source target config).2.toNat * fullBasisPoints ≤
      config.pricing.virtualMultiplier * (depths pool source).2.toNat := by
  rw [pricedDepths, if_pos hscaled, ← Curve.toNat_full]
  exact (Amount.share_mul_le _ _ _).trans (Nat.mul_le_mul_right _ (Amount.toNat_clamp_le _))

/-- **A leg is backed when the multiplier times the peak is at most one.** -/
theorem backed_of_peak (h : trade pool source target amount config = .ok leg)
    (htarget : target.isSynthetic = false) (hfit : Fits pool source target amount config)
    (hpeak : config.pricing.virtualMultiplier * Curve.peak (slipFloor source target config) ≤
      fullBasisPoints ^ 3) :
    Backed pool leg := by
  cases hscaled : isVirtual source target pool with
  | false => exact backed_of_real h htarget hscaled
  | true =>
      obtain ⟨hnative, hasset⟩ := sides_of_trade h
      obtain ⟨-, -, -, -, hemit, -⟩ := trade_inv h
      have hpos : 1 ≤ (depths pool source).2.toNat := by
        rw [depths]
        split
        · exact Nat.one_le_iff_ne_zero.mpr hasset
        · exact Nat.one_le_iff_ne_zero.mpr hnative
      have hfloor : (Amount.clamp (slipFloor source target config)).toNat = 0 ∨
          Curve.Fits (pricedDepths pool source target config).1 amount
            (pricedDepths pool source target config).2
            (.clamp (slipFloor source target config)) := by
        by_cases hz : slipFloor source target config = 0
        · exact .inl (by rw [hz]; rfl)
        · exact .inr (hfit hscaled hz)
      refine (backed_iff h htarget).mpr ?_
      have hquote := Curve.quote_peak hfloor
      rw [← hemit, Curve.peak_toNat_clamp] at hquote
      rcases hquote with hone | hless
      · exact hone.trans hpos
      · -- the peak of the scaled depth is at most the balance
        have hdepth : Curve.peak (slipFloor source target config) *
            (pricedDepths pool source target config).2.toNat * fullBasisPoints ≤
              fullBasisPoints ^ 3 * (depths pool source).2.toNat :=
          calc Curve.peak (slipFloor source target config) *
                (pricedDepths pool source target config).2.toNat * fullBasisPoints
              = Curve.peak (slipFloor source target config) *
                  ((pricedDepths pool source target config).2.toNat * fullBasisPoints) := by ring
            _ ≤ Curve.peak (slipFloor source target config) *
                  (config.pricing.virtualMultiplier * (depths pool source).2.toNat) :=
                Nat.mul_le_mul_left _ (pricedDepths_snd_mul_le hscaled)
            _ = config.pricing.virtualMultiplier * Curve.peak (slipFloor source target config) *
                  (depths pool source).2.toNat := by ring
            _ ≤ fullBasisPoints ^ 3 * (depths pool source).2.toNat :=
                Nat.mul_le_mul_right _ hpeak
        refine Nat.le_of_lt_succ (Nat.lt_of_mul_lt_mul_right (a := fullBasisPoints ^ 3) ?_)
        calc leg.emit.toNat * fullBasisPoints ^ 3
            = leg.emit.toNat * fullBasisPoints ^ 2 * fullBasisPoints := by ring
          _ < (Curve.peak (slipFloor source target config) *
                (pricedDepths pool source target config).2.toNat + fullBasisPoints ^ 2) *
                fullBasisPoints := Nat.mul_lt_mul_of_pos_right hless (by decide)
          _ = Curve.peak (slipFloor source target config) *
                (pricedDepths pool source target config).2.toNat * fullBasisPoints +
                fullBasisPoints ^ 3 := by ring
          _ ≤ fullBasisPoints ^ 3 * (depths pool source).2.toNat + fullBasisPoints ^ 3 :=
              Nat.add_le_add_right hdepth _
          _ = ((depths pool source).2.toNat + 1) * fullBasisPoints ^ 3 := by ring

end Leg

/-! ### Where the peak is reached -/

namespace Curve

variable {multiplier s : Nat} {inDepth x outDepth floor : Amount}

theorem fits_of_parts (hword : multiplier < wordBound 64) (hs : s ≤ fullBasisPoints)
    (hin : inDepth.toNat = multiplier * (fullBasisPoints - s)) (hx : x.toNat = multiplier * s)
    (hout : outDepth.toNat = multiplier * fullBasisPoints ^ 2) :
    Fits inDepth x outDepth floor := by
  have hm : multiplier ≤ wordBound 64 := hword.le
  have hcap : min floor.toNat fullBasisPoints ≤ fullBasisPoints := Nat.min_le_right _ _
  constructor
  · rw [hx, hin, ← Nat.mul_add, Nat.add_sub_cancel' hs]
    exact lt_of_le_of_lt (Nat.mul_le_mul_right _ hm) (by decide)
  · rw [hx]
    exact lt_of_le_of_lt (b := wordBound 64 * fullBasisPoints * fullBasisPoints) (by gcongr)
      (by decide)
  · intro _
    rw [hx, hout]
    exact lt_of_le_of_lt
      (b := wordBound 64 * fullBasisPoints * (wordBound 64 * fullBasisPoints ^ 2))
      (by gcongr) (by decide)
  · intro _
    rw [hx, hout]
    exact lt_of_le_of_lt
      (b := fullBasisPoints *
        (wordBound 64 * fullBasisPoints * (wordBound 64 * fullBasisPoints ^ 2)))
      (by gcongr) (by decide)

/-- Selling `s` parts to a depth of the others emits exactly the part that belongs to a slip of
`s`. -/
theorem quote_of_parts (hword : multiplier < wordBound 64) (hs : s ≤ fullBasisPoints)
    (hin : inDepth.toNat = multiplier * (fullBasisPoints - s)) (hx : x.toNat = multiplier * s)
    (hout : outDepth.toNat = multiplier * fullBasisPoints ^ 2) (hpos : 0 < multiplier)
    (hfloor : floor.toNat ≤ s) :
    (quote inDepth x outDepth floor).emit.toNat = multiplier * (s * (fullBasisPoints - s)) := by
  have hfit := @fits_of_parts _ _ _ _ _ floor hword hs hin hx hout
  have hm : multiplier ≤ wordBound 64 := hword.le
  have hrest : fullBasisPoints - s ≤ fullBasisPoints := Nat.sub_le _ _
  have hdepth : 0 < multiplier * fullBasisPoints := Nat.mul_pos hpos (by decide)
  have hsum : (x + inDepth).toNat = multiplier * fullBasisPoints := by
    rw [Amount.toNat_add_of_lt hfit.sum, hx, hin, ← Nat.mul_add, Nat.add_sub_cancel' hs]
  have hnominal : ¬ slip inDepth x < floor := by
    have hslip : (slip inDepth x).toNat = s := by
      rw [slip, Amount.toNat_div, hsum, Amount.toNat_mul_of_lt, toNat_full, hx]
      · rw [show multiplier * s * fullBasisPoints = s * (multiplier * fullBasisPoints) by ring]
        exact Nat.mul_div_cancel _ hdepth
      · rw [toNat_full]
        exact hfit.parts
    rw [Amount.lt_def, hslip]
    exact Nat.not_lt.mpr hfloor
  have hpair : (x * inDepth).toNat = multiplier * s * (multiplier * (fullBasisPoints - s)) := by
    rw [Amount.toNat_mul_of_lt, hx, hin]
    rw [hx, hin]
    exact lt_of_le_of_lt (b := wordBound 64 * fullBasisPoints * (wordBound 64 * fullBasisPoints))
      (by gcongr) (by decide)
  have hnum : (x * inDepth * outDepth).toNat = multiplier * (s * (fullBasisPoints - s)) *
      (multiplier * fullBasisPoints * (multiplier * fullBasisPoints)) := by
    rw [Amount.toNat_mul_of_lt, hpair, hout]
    · ring
    · rw [hpair, hout]
      exact lt_of_le_of_lt (b := wordBound 64 * fullBasisPoints *
        (wordBound 64 * fullBasisPoints) * (wordBound 64 * fullBasisPoints ^ 2))
        (by gcongr) (by decide)
  have hden : ((x + inDepth) * (x + inDepth)).toNat =
      multiplier * fullBasisPoints * (multiplier * fullBasisPoints) := by
    rw [Amount.toNat_mul_of_lt, hsum]
    rw [hsum]
    exact lt_of_le_of_lt (b := wordBound 64 * fullBasisPoints * (wordBound 64 * fullBasisPoints))
      (by gcongr) (by decide)
  rw [quote, if_neg hnominal, emission, Amount.toNat_div, hnum, hden]
  exact Nat.mul_div_cancel _ (Nat.mul_pos hdepth hdepth)

theorem toNat_scaleDepth {multiplier depth : Nat} (hm : multiplier < Amount.bound)
    (hd : depth * fullBasisPoints < Amount.bound)
    (h : multiplier * (depth * fullBasisPoints) < Amount.bound) :
    (scaleDepth (.clamp (depth * fullBasisPoints)) multiplier).toNat = multiplier * depth := by
  rw [scaleDepth, Amount.toNat_share_of_lt, Amount.toNat_clamp_of_lt hm,
    Amount.toNat_clamp_of_lt hd, toNat_full, ← Nat.mul_assoc]
  · exact Nat.mul_div_cancel _ (by decide)
  · rw [Amount.toNat_clamp_of_lt hm, Amount.toNat_clamp_of_lt hd]
    exact h

end Curve

/-- An asset of the class. -/
def SlipClass.sample : SlipClass → Asset
  | .layer1 => ⟨"BTC", "BTC", .layer1⟩
  | .synthetic => ⟨"BTC", "BTC", .synthetic⟩
  | .trade => ⟨"BTC", "BTC", .trade⟩
  | .secured => ⟨"BTC", "BTC", .secured⟩
  | .derived => ⟨Asset.nativeChain, "BTC", .layer1⟩

theorem SlipClass.slipClass_sample (c : SlipClass) : c.sample.slipClass = c := by
  cases c <;> decide

theorem SlipClass.isNative_sample (c : SlipClass) : c.sample.isNative = false := by
  cases c <;> decide

namespace Leg

/-- A derived pool with the parts of the asset that a slip of `s` leaves. -/
def peakPool (s : Nat) : Pool :=
  { Pool.empty SlipClass.derived.sample with
    balanceNative := .clamp (fullBasisPoints ^ 2 * fullBasisPoints)
    balanceAsset := .clamp ((fullBasisPoints - s) * fullBasisPoints)
    status := .available }

theorem isDerived_peakPool (s : Nat) : (peakPool s).asset.isDerived = true := by
  show SlipClass.derived.sample.layer1.isDerived = true
  decide

variable {config : Config}

theorem pricedDepths_peakPool (hword : config.pricing.virtualMultiplier < wordBound 64) (s : Nat)
    {source : Asset} (hsource : source.isNative = false) :
    (pricedDepths (peakPool s) source .native config).1.toNat =
        config.pricing.virtualMultiplier * (fullBasisPoints - s) ∧
      (pricedDepths (peakPool s) source .native config).2.toNat =
        config.pricing.virtualMultiplier * fullBasisPoints ^ 2 := by
  have hm : config.pricing.virtualMultiplier ≤ wordBound 64 := hword.le
  have hbound : config.pricing.virtualMultiplier < Amount.bound := hword.trans (by decide)
  have hrest : fullBasisPoints - s ≤ fullBasisPoints := Nat.sub_le _ _
  have hscaled : isVirtual source .native (peakPool s) = true := by
    rw [isVirtual, isDerived_peakPool, Bool.or_true]
  simp only [pricedDepths, hscaled, if_true, depths, hsource, Bool.false_eq_true, if_false]
  refine ⟨Curve.toNat_scaleDepth hbound ?_ ?_, Curve.toNat_scaleDepth hbound (by decide) ?_⟩
  · exact lt_of_le_of_lt (Nat.mul_le_mul_right _ hrest) (by decide)
  · exact lt_of_le_of_lt (b := wordBound 64 * (fullBasisPoints * fullBasisPoints)) (by gcongr)
      (by decide)
  · exact lt_of_le_of_lt (Nat.mul_le_mul_right _ hm) (by decide)

/-- A trade goes through when the pool is open and the emission is below the depth. -/
theorem exists_trade {pool : Pool} {source target : Asset} {amount : Amount}
    (hasset : pool.asset.isSynthetic = false) (hopen : pool.isAvailable = true)
    (hamount : amount.toNat ≠ 0) (hin : (pricedDepths pool source target config).1.toNat ≠ 0)
    (hemit : (Curve.quote (pricedDepths pool source target config).1 amount
        (pricedDepths pool source target config).2
        (.clamp (slipFloor source target config))).emit.toNat <
      (pricedDepths pool source target config).2.toNat) :
    ∃ leg, trade pool source target amount config = .ok leg := by
  have hout := Nat.ne_zero_of_lt hemit
  simp [trade, hasset, hopen, hamount, hin, hout, Amount.le_def, Nat.not_le.mpr hemit]

/-- **Above the peak some leg is not backed.** -/
theorem exists_unbacked (hword : config.pricing.virtualMultiplier < wordBound 64) (c : SlipClass)
    (hover : fullBasisPoints ^ 3 <
      config.pricing.virtualMultiplier * Curve.peak (config.slipFloors.forClass c)) :
    ∃ pool amount leg, Fits pool c.sample .native amount config ∧
      trade pool c.sample .native amount config = .ok leg ∧ ¬ Backed pool leg := by
  -- the slip at which the peak is reached
  obtain ⟨s, hfloor, hpeak⟩ : ∃ s, config.slipFloors.forClass c ≤ s ∧
      Curve.peak (config.slipFloors.forClass c) = s * (fullBasisPoints - s) :=
    ⟨_, le_max_left _ _, rfl⟩
  rw [hpeak] at hover
  have hpos : 0 < config.pricing.virtualMultiplier := Nat.pos_of_ne_zero fun hz => by
    simp [hz] at hover
  have hs : 0 < s := Nat.pos_of_ne_zero fun hz => by simp [hz] at hover
  have hs' : s < fullBasisPoints := Nat.lt_of_not_le fun hle => by
    simp [Nat.sub_eq_zero_of_le hle] at hover
  obtain ⟨hin, hout⟩ := pricedDepths_peakPool hword s c.isNative_sample
  have hx : (Amount.clamp (config.pricing.virtualMultiplier * s)).toNat =
      config.pricing.virtualMultiplier * s := by
    refine Amount.toNat_clamp_of_lt ?_
    exact lt_of_le_of_lt (Nat.mul_le_mul hword.le hs'.le) (by decide)
  have hclamp : (Amount.clamp (slipFloor c.sample .native config)).toNat ≤ s := by
    rw [slipFloor, c.isNative_sample, if_neg Bool.false_ne_true, c.slipClass_sample]
    exact (Amount.toNat_clamp_le _).trans hfloor
  have hemit := Curve.quote_of_parts hword hs'.le hin hx hout hpos hclamp
  have hless : s * (fullBasisPoints - s) < fullBasisPoints ^ 2 := by
    rw [Nat.pow_two]
    exact Nat.mul_lt_mul_of_lt_of_le hs' (Nat.sub_le _ _) (by decide)
  obtain ⟨leg, hleg⟩ : ∃ leg, trade (peakPool s) c.sample .native
      (.clamp (config.pricing.virtualMultiplier * s)) config = .ok leg := by
    refine exists_trade rfl rfl ?_ ?_ ?_
    · rw [hx]
      exact (Nat.mul_pos hpos hs).ne'
    · rw [hin]
      exact (Nat.mul_pos hpos (Nat.sub_pos_of_lt hs')).ne'
    · rw [hemit, hout]
      exact Nat.mul_lt_mul_of_pos_left hless hpos
  refine ⟨peakPool s, _, leg, fun _ _ => ?_, hleg, ?_⟩
  · exact Curve.fits_of_parts hword hs'.le hin hx hout
  · obtain ⟨-, -, -, -, hquote, -⟩ := trade_inv hleg
    rw [backed_iff hleg (by decide), hquote, hemit, depths, c.isNative_sample]
    exact Nat.not_le.mpr hover

/-- **Every leg is backed exactly when the multiplier times the peak of each floor is at most
one.**  The legs meant are those between native and another asset that pay out of a balance, and
whose floored quotes stop nowhere. -/
theorem backed_iff_peak (hword : config.pricing.virtualMultiplier < wordBound 64) :
    (∀ pool source target amount leg, source.isNative ≠ target.isNative →
        target.isSynthetic = false → Fits pool source target amount config →
        trade pool source target amount config = .ok leg → Backed pool leg) ↔
      ∀ c, config.pricing.virtualMultiplier * Curve.peak (config.slipFloors.forClass c) ≤
        fullBasisPoints ^ 3 := by
  constructor
  · intro h c
    by_contra hover
    obtain ⟨pool, amount, leg, hfit, htrade, hunbacked⟩ :=
      exists_unbacked hword c (Nat.lt_of_not_le hover)
    refine hunbacked (h pool c.sample .native amount leg ?_ rfl hfit htrade)
    rw [c.isNative_sample]
    decide
  · intro h pool source target amount leg _ htarget hfit htrade
    exact backed_of_peak htrade htarget hfit (h _)

/-- A pool with as much of the one asset as of the other. -/
def evenPool : Pool :=
  { Pool.empty SlipClass.layer1.sample with
    balanceNative := 1000
    balanceAsset := 1000
    lpUnits := 1000
    status := .available }

/-- Synthetic trades are charged a floor of five percent, at depths scaled by `multiplier`. -/
def scaledConfig (multiplier : Nat) : Config where
  slipFloors := { synthetic := 500 }
  pricing := { virtualMultiplier := multiplier }

theorem backed_iff_peak_doubled :
    (scaledConfig 20000).pricing.virtualMultiplier < wordBound 64 ∧
      Fits evenPool SlipClass.synthetic.sample .native 50 (scaledConfig 20000) ∧
      ∃ leg,
        trade evenPool SlipClass.synthetic.sample .native 50 (scaledConfig 20000) = .ok leg ∧
        Backed evenPool leg := by
  have hword : (scaledConfig 20000).pricing.virtualMultiplier < wordBound 64 := by decide
  have hfit : Fits evenPool SlipClass.synthetic.sample .native 50 (scaledConfig 20000) := by
    decide +kernel
  obtain ⟨leg, hleg⟩ : ∃ leg, trade evenPool SlipClass.synthetic.sample .native 50
      (scaledConfig 20000) = .ok leg :=
    exists_trade (by decide) (by decide) (by decide) (by decide +kernel) (by decide +kernel)
  refine ⟨hword, hfit, leg, hleg, (backed_iff_peak hword).mpr (fun c => ?_) _ _ _ _ leg
    (by decide) (by decide) hfit hleg⟩
  cases c <;> decide

/-- At eightfold depths a pool pays out twice what it holds. -/
theorem unbacked_eightfold :
    (scaledConfig 80000).validate = .ok () ∧
      SlipClass.synthetic.sample.isNative ≠ Asset.native.isNative ∧
      Asset.native.isSynthetic = false ∧
      ∃ leg,
        trade evenPool SlipClass.synthetic.sample .native 8000 (scaledConfig 80000) = .ok leg ∧
        leg.emit = 2000 ∧ leg.pool.balanceNative = 0 ∧ ¬ Backed evenPool leg := by
  refine ⟨by decide, by decide, by decide, ?_⟩
  obtain ⟨leg, hleg⟩ : ∃ leg, trade evenPool SlipClass.synthetic.sample .native 8000
      (scaledConfig 80000) = .ok leg :=
    exists_trade (by decide) (by decide) (by decide) (by decide +kernel) (by decide +kernel)
  obtain ⟨-, -, -, -, hemit, -, hpool, -⟩ := trade_inv hleg
  have hquote : leg.emit = 2000 := hemit.trans (by decide +kernel)
  refine ⟨leg, hleg, hquote, ?_, ?_⟩
  · rw [hpool, hquote]
    decide
  · rw [backed_iff hleg (by decide), hquote]
    decide

end Leg

end PoolExchange
