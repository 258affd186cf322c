import PoolExchange.Proofs.Backing
import PoolExchange.Proofs.ScaledCurve

/-!
# Leg — what scaled depths take from a derived pool

A leg with the pool of a derived asset is priced at scaled depths, but what it moves are the real
balances.  At real depths no leg lowers the product of the balances.  At scaled depths a leg emits
what `Scaled.emission` says (`Leg.Derived.toNat_quote`), and it lowers the product when that is more
than the constant product of the real balances allows (`Leg.Derived.kept_iff`).

So **no leg lowers the product of a derived pool exactly when the multiplier and the floor are
conservative** (`Leg.product_kept_iff`).  Without a floor the default, which doubles the depths, is
the largest multiplier that is (`Scaled.le_of_conservative`).
-/

namespace PoolExchange

namespace Config

theorem SlipFloors.exists_name (f : SlipFloors) (c : SlipClass) :
    ∃ name, (name, f.forClass c) ∈ f.named := by
  cases c with
  | layer1 => exact ⟨_, .head _⟩
  | synthetic => exact ⟨_, .tail _ (.head _)⟩
  | trade => exact ⟨_, .tail _ (.tail _ (.head _))⟩
  | secured => exact ⟨_, .tail _ (.tail _ (.tail _ (.head _)))⟩
  | derived => exact ⟨_, .tail _ (.tail _ (.tail _ (.tail _ (.head _))))⟩

/-- A valid configuration scales by something, and no floor charges more than everything. -/
theorem validate_inv {config : Config} (h : config.validate = .ok ()) :
    0 < config.pricing.virtualMultiplier ∧
      ∀ c, config.slipFloors.forClass c ≤ fullBasisPoints := by
  rw [validate, guard_eq_ok, guard_eq_ok] at h
  obtain ⟨-, hpos, h⟩ := h
  refine ⟨Nat.pos_of_ne_zero hpos, fun c => ?_⟩
  split at h
  · cases h
  · rename_i hfind
    obtain ⟨name, hmem⟩ := config.slipFloors.exists_name c
    have hle := List.find?_eq_none.mp hfind _ hmem
    rw [decide_eq_true_eq] at hle
    exact Nat.not_lt.mp hle

end Config

/-! ### Prices that stop nowhere -/

namespace Curve

/-- No sum or product of a quote stops at the largest amount, in whichever way the fee is charged. -/
structure Exact (inDepth x outDepth floor : Amount) : Prop extends
    Fits inDepth x outDepth floor where
  denominator : ¬ slip inDepth x < floor → (x.toNat + inDepth.toNat) ^ 2 < Amount.bound
  emission : ¬ slip inDepth x < floor →
    x.toNat * inDepth.toNat * outDepth.toNat < Amount.bound
  fee : ¬ slip inDepth x < floor → x.toNat * x.toNat * outDepth.toNat < Amount.bound

variable {inDepth x outDepth floor : Amount}

/-- A small input into depths that are not too large. -/
theorem Exact.of_le (hx : x.toNat ≤ 2) (hin : inDepth.toNat ≤ 2 ^ 80)
    (hout : outDepth.toNat ≤ 2 ^ 130) : Exact inDepth x outDepth floor where
  sum := (Nat.add_le_add hx hin).trans_lt (by decide)
  parts := (Nat.mul_le_mul_right _ hx).trans_lt (by decide)
  gross _ := (Nat.mul_le_mul hx hout).trans_lt (by decide)
  charge _ :=
    (Nat.mul_le_mul (Nat.min_le_right _ _) (Nat.mul_le_mul hx hout)).trans_lt (by decide)
  denominator _ := (Nat.pow_le_pow_left (Nat.add_le_add hx hin) 2).trans_lt (by decide)
  emission _ := (Nat.mul_le_mul (Nat.mul_le_mul hx hin) hout).trans_lt (by decide)
  fee _ := (Nat.mul_le_mul (Nat.mul_le_mul hx hx) hout).trans_lt (by decide)

/-- A part of the nominal price, in numbers: the emission for the depth of the input side, the fee
for the input. -/
theorem toNat_nominal {side : Amount} (hden : (x.toNat + inDepth.toNat) ^ 2 < Amount.bound)
    (hnum : x.toNat * side.toNat * outDepth.toNat < Amount.bound) :
    (x * side * outDepth / ((x + inDepth) * (x + inDepth))).toNat =
      x.toNat * side.toNat * outDepth.toNat / (x.toNat + inDepth.toNat) ^ 2 := by
  have hsum : (x + inDepth).toNat = x.toNat + inDepth.toNat :=
    Amount.toNat_add_of_lt ((Nat.le_self_pow (by decide) _).trans_lt hden)
  have hsquare : ((x + inDepth) * (x + inDepth)).toNat = (x.toNat + inDepth.toNat) ^ 2 := by
    rw [Amount.toNat_mul_of_lt, hsum, Nat.pow_two]
    rwa [hsum, ← Nat.pow_two]
  rw [Amount.toNat_div, hsquare]
  rcases Nat.eq_zero_or_pos outDepth.toNat with hzero | hpos
  · rw [Amount.toNat_mul, hzero, Nat.mul_zero, Nat.mul_zero, Nat.zero_min]
  · have hpair : (x * side).toNat = x.toNat * side.toNat :=
      Amount.toNat_mul_of_lt ((Nat.le_mul_of_pos_right _ hpos).trans_lt hnum)
    rw [Amount.toNat_mul_of_lt, hpair]
    rwa [hpair]

theorem Exact.toNat_emission (h : Exact inDepth x outDepth floor)
    (hslip : ¬ slip inDepth x < floor) :
    (Curve.emission inDepth x outDepth).toNat =
      x.toNat * inDepth.toNat * outDepth.toNat / (x.toNat + inDepth.toNat) ^ 2 :=
  toNat_nominal (h.denominator hslip) (h.emission hslip)

theorem Exact.toNat_fee (h : Exact inDepth x outDepth floor) (hslip : ¬ slip inDepth x < floor) :
    (Curve.fee inDepth x outDepth).toNat =
      x.toNat * x.toNat * outDepth.toNat / (x.toNat + inDepth.toNat) ^ 2 :=
  toNat_nominal (h.denominator hslip) (h.fee hslip)

/-- What a quote emits, in numbers. -/
theorem Exact.toNat_quote (h : Exact inDepth x outDepth floor)
    (hfloor : floor.toNat ≤ fullBasisPoints) :
    (quote inDepth x outDepth floor).emit.toNat =
      if x.toNat * fullBasisPoints / (x.toNat + inDepth.toNat) < floor.toNat then
        x.toNat * outDepth.toNat / (x.toNat + inDepth.toNat) -
          floor.toNat * (x.toNat * outDepth.toNat) /
            (fullBasisPoints * (x.toNat + inDepth.toNat))
      else
        x.toNat * inDepth.toNat * outDepth.toNat / (x.toNat + inDepth.toNat) ^ 2 := by
  have hslip : slip inDepth x < floor ↔
      x.toNat * fullBasisPoints / (x.toNat + inDepth.toNat) < floor.toNat := by
    rw [Amount.lt_def, toNat_slip h.toFits]
  by_cases hfloored : slip inDepth x < floor
  · rw [quote, if_pos hfloored, if_pos (hslip.mp hfloored), Amount.toNat_sub,
      toNat_fullEmission h.toFits hfloored, toNat_floorFee h.toFits hfloored,
      Nat.min_eq_left hfloor]
  · rw [quote, if_neg hfloored, if_neg (mt hslip.mpr hfloored)]
    exact h.toNat_emission hfloored

/-- A scaled depth, in numbers. -/
theorem toNat_scaleDepth_of_lt {multiplier : Nat} {depth : Amount} (hm : multiplier < Amount.bound)
    (h : multiplier * depth.toNat < Amount.bound) :
    (scaleDepth depth multiplier).toNat = Scaled.depth multiplier depth.toNat := by
  rw [scaleDepth, Amount.toNat_share_of_lt, Amount.toNat_clamp_of_lt hm, toNat_full]
  · rfl
  · rwa [Amount.toNat_clamp_of_lt hm]

/-- The product of two depths is kept by what the constant product allows, and by nothing else. -/
theorem product_le_iff {X x Y e : Nat} (hX : 0 < X) (hx : 0 < x) (hY : 0 < Y) :
    X * Y ≤ (X + x) * (Y - e) ↔ e * (x + X) ≤ x * Y := by
  constructor
  · intro hkept
    by_contra hover
    rw [Nat.not_le] at hover
    rcases Nat.le_total Y e with hle | hle
    · rw [Nat.sub_eq_zero_of_le hle, Nat.mul_zero] at hkept
      exact absurd hkept (Nat.not_le.mpr (Nat.mul_pos hX hY))
    · obtain ⟨rest, rfl⟩ := Nat.exists_eq_add_of_le hle
      rw [Nat.add_sub_cancel_left] at hkept
      nlinarith
  · intro hle
    refine product_le_of_mul_le ?_ hle
    refine Nat.le_of_mul_le_mul_left ?_ hx
    exact (Nat.mul_comm x e).trans_le ((Nat.mul_le_mul_left _ (Nat.le_add_right _ _)).trans hle)

end Curve

/-! ### Legs with a derived pool -/

namespace Leg

/-- The leg goes between native and the derived asset of an open pool with something on both
sides. -/
structure Derived (pool : Pool) (source target : Asset) : Prop where
  derived : pool.asset.isDerived = true
  opened : pool.isAvailable = true
  native_pos : pool.balanceNative.toNat ≠ 0
  asset_pos : pool.balanceAsset.toNat ≠ 0
  sides : (source = .native ∧ target = pool.asset) ∨ (source = pool.asset ∧ target = .native)

/-- Nothing that the leg computes stops at the largest amount: not the scaled depths, the price, the
balance of the input side, or the value of the fee. -/
structure Unsaturated (pool : Pool) (source target : Asset) (amount : Amount) (config : Config) :
    Prop where
  scaled_in : config.pricing.virtualMultiplier * (depths pool source).1.toNat < Amount.bound
  scaled_out : config.pricing.virtualMultiplier * (depths pool source).2.toNat < Amount.bound
  price : Curve.Exact (pricedDepths pool source target config).1 amount
    (pricedDepths pool source target config).2 (.clamp (slipFloor source target config))
  settled : (depths pool source).1.toNat + amount.toNat < Amount.bound
  value : target.isNative = false → ∀ leg, trade pool source target amount config = .ok leg →
    leg.pool.balanceNative.toNat * leg.fee.toNat < Amount.bound

variable {pool : Pool} {source target : Asset} {amount : Amount} {config : Config} {leg : Leg}

theorem depths_product (pool : Pool) (source : Asset) :
    (depths pool source).1.toNat * (depths pool source).2.toNat =
      pool.balanceNative.toNat * pool.balanceAsset.toNat := by
  rw [depths]
  split
  · rfl
  · exact Nat.mul_comm _ _

namespace Derived

theorem kind (h : Derived pool source target) : pool.asset.kind = .layer1 := by
  have hderived := h.derived
  rw [Asset.isDerived, Bool.and_eq_true, Bool.and_eq_true, beq_iff_eq] at hderived
  exact hderived.1.1

theorem isNative_eq_false (h : Derived pool source target) : pool.asset.isNative = false := by
  rw [Bool.eq_false_iff, Ne, Asset.isNative_iff]
  intro hnative
  have hderived := h.derived
  rw [hnative] at hderived
  exact absurd hderived (by decide)

/-- Neither side is synthetic, so both balances move. -/
theorem isSynthetic_eq_false (h : Derived pool source target) :
    source.isSynthetic = false ∧ target.isSynthetic = false := by
  have hnative : Asset.native.isSynthetic = false := rfl
  have hasset : pool.asset.isSynthetic = false := by
    rw [Asset.isSynthetic, h.kind]
    rfl
  rcases h.sides with ⟨rfl, rfl⟩ | ⟨rfl, rfl⟩
  · exact ⟨hnative, hasset⟩
  · exact ⟨hasset, hnative⟩

theorem slipFloor_eq (h : Derived pool source target) :
    slipFloor source target config = config.slipFloors.derived := by
  have hclass : pool.asset.slipClass = .derived := by
    rw [Asset.slipClass, h.kind, h.derived]
    rfl
  have hside : (if source.isNative then target else source) = pool.asset := by
    rcases h.sides with ⟨rfl, rfl⟩ | ⟨rfl, rfl⟩
    · exact if_pos rfl
    · exact if_neg (by simp [h.isNative_eq_false])
  rw [slipFloor, hside, hclass]
  rfl

theorem depths_pos (h : Derived pool source target) :
    0 < (depths pool source).1.toNat ∧ 0 < (depths pool source).2.toNat := by
  have hnative := Nat.pos_of_ne_zero h.native_pos
  have hasset := Nat.pos_of_ne_zero h.asset_pos
  rw [depths]
  split
  · exact ⟨hnative, hasset⟩
  · exact ⟨hasset, hnative⟩

theorem toNat_pricedDepths (h : Derived pool source target)
    (hword : config.pricing.virtualMultiplier < wordBound 64)
    (hin : config.pricing.virtualMultiplier * (depths pool source).1.toNat < Amount.bound)
    (hout : config.pricing.virtualMultiplier * (depths pool source).2.toNat < Amount.bound) :
    (pricedDepths pool source target config).1.toNat =
        Scaled.depth config.pricing.virtualMultiplier (depths pool source).1.toNat ∧
      (pricedDepths pool source target config).2.toNat =
        Scaled.depth config.pricing.virtualMultiplier (depths pool source).2.toNat := by
  have hscaled : isVirtual source target pool = true := by
    rw [isVirtual, h.derived, Bool.or_true]
  have hbound : config.pricing.virtualMultiplier < Amount.bound := hword.trans (by decide)
  rw [pricedDepths, if_pos hscaled]
  exact ⟨Curve.toNat_scaleDepth_of_lt hbound hin, Curve.toNat_scaleDepth_of_lt hbound hout⟩

/-- What the quote of the leg emits, in numbers. -/
theorem toNat_quote (h : Derived pool source target) (hvalid : config.validate = .ok ())
    (hword : config.pricing.virtualMultiplier < wordBound 64)
    (hexact : Unsaturated pool source target amount config) :
    (Curve.quote (pricedDepths pool source target config).1 amount
        (pricedDepths pool source target config).2
        (.clamp (slipFloor source target config))).emit.toNat =
      Scaled.emission config.pricing.virtualMultiplier config.slipFloors.derived
        (depths pool source).1.toNat amount.toNat (depths pool source).2.toNat := by
  have hle : config.slipFloors.derived ≤ fullBasisPoints := (Config.validate_inv hvalid).2 .derived
  have hfloor : (Amount.clamp (slipFloor source target config)).toNat =
      config.slipFloors.derived := by
    rw [h.slipFloor_eq]
    exact Amount.toNat_clamp_of_lt (hle.trans_lt (by decide))
  obtain ⟨hin, hout⟩ := h.toNat_pricedDepths hword hexact.scaled_in hexact.scaled_out
  rw [hexact.price.toNat_quote (hfloor.trans_le hle), hfloor, hin, hout]
  rfl

/-- **The product is kept when the emission is at most what the real balances allow.** -/
theorem kept_iff (h : Derived pool source target)
    (hexact : Unsaturated pool source target amount config)
    (htrade : trade pool source target amount config = .ok leg) :
    pool.balanceNative.toNat * pool.balanceAsset.toNat ≤
        leg.pool.balanceNative.toNat * leg.pool.balanceAsset.toNat ↔
      leg.emit.toNat * (amount.toNat + (depths pool source).1.toNat) ≤
        amount.toNat * (depths pool source).2.toNat := by
  obtain ⟨-, hamount, -, -, -, -, hpool, -⟩ := trade_inv htrade
  obtain ⟨hsource, htarget⟩ := h.isSynthetic_eq_false
  have hafter : depths leg.pool source =
      ((depths pool source).1 + amount, (depths pool source).2 - leg.emit) := by
    rw [hpool, settle, depths, depths, hsource, htarget]
    split <;> rfl
  obtain ⟨hin, hout⟩ := h.depths_pos
  rw [← depths_product pool source, ← depths_product leg.pool source, hafter, Amount.toNat_sub,
    Amount.toNat_add_of_lt hexact.settled]
  exact Curve.product_le_iff hin (Nat.pos_of_ne_zero hamount) hout

end Derived

/-! ### Which configurations keep the product -/

/-- A pool of a derived asset with `Y` of native and `X` of the asset. -/
def derivedPool (X Y : Nat) : Pool :=
  { Pool.empty SlipClass.derived.sample with
    balanceNative := .clamp Y
    balanceAsset := .clamp X
    lpUnits := 1
    status := .available }

section
variable {X x Y : Nat}
  (h : Scaled.Gains config.pricing.virtualMultiplier config.slipFloors.derived X x Y)
include h

theorem depths_derivedPool :
    (depths (derivedPool X Y) SlipClass.derived.sample).1.toNat = X ∧
      (depths (derivedPool X Y) SlipClass.derived.sample).2.toNat = Y :=
  ⟨Amount.toNat_clamp_of_lt (h.in_le.trans_lt (by decide)),
    Amount.toNat_clamp_of_lt (h.out_le.trans_lt (by decide))⟩

theorem derived_derivedPool : Derived (derivedPool X Y) SlipClass.derived.sample .native where
  derived := show SlipClass.derived.sample.layer1.isDerived = true by decide
  opened := rfl
  native_pos := (depths_derivedPool h).2.trans_ne h.out_pos.ne'
  asset_pos := (depths_derivedPool h).1.trans_ne h.in_pos.ne'
  sides := .inr ⟨rfl, rfl⟩

theorem scaled_derivedPool (hword : config.pricing.virtualMultiplier < wordBound 64) :
    config.pricing.virtualMultiplier *
        (depths (derivedPool X Y) SlipClass.derived.sample).1.toNat < Amount.bound ∧
      config.pricing.virtualMultiplier *
        (depths (derivedPool X Y) SlipClass.derived.sample).2.toNat < Amount.bound := by
  obtain ⟨hin, hout⟩ := depths_derivedPool h
  rw [hin, hout]
  exact ⟨(Nat.mul_le_mul hword.le h.in_le).trans_lt (by decide),
    (Nat.mul_le_mul hword.le h.out_le).trans_lt (by decide)⟩

theorem toNat_pricedDepths_derivedPool (hword : config.pricing.virtualMultiplier < wordBound 64) :
    (pricedDepths (derivedPool X Y) SlipClass.derived.sample .native config).1.toNat =
        Scaled.depth config.pricing.virtualMultiplier X ∧
      (pricedDepths (derivedPool X Y) SlipClass.derived.sample .native config).2.toNat =
        Scaled.depth config.pricing.virtualMultiplier Y := by
  obtain ⟨hin, hout⟩ := depths_derivedPool h
  obtain ⟨hscaled_in, hscaled_out⟩ := scaled_derivedPool h hword
  have hpriced := (derived_derivedPool h).toNat_pricedDepths hword hscaled_in hscaled_out
  rwa [hin, hout] at hpriced

theorem unsaturated_derivedPool (hword : config.pricing.virtualMultiplier < wordBound 64) :
    Unsaturated (derivedPool X Y) SlipClass.derived.sample .native (.clamp x) config := by
  obtain ⟨hin, -⟩ := depths_derivedPool h
  obtain ⟨hscaled_in, hscaled_out⟩ := scaled_derivedPool h hword
  obtain ⟨hpriced_in, hpriced_out⟩ := toNat_pricedDepths_derivedPool h hword
  have hx : (Amount.clamp x).toNat ≤ 2 := (Amount.toNat_clamp_le x).trans h.input_le
  refine ⟨hscaled_in, hscaled_out, .of_le hx ?_ ?_, ?_, fun hnative => by cases hnative⟩
  · rw [hpriced_in]
    exact h.depth_le
  · rw [hpriced_out]
    exact h.depth_out_le
  · rw [hin]
    exact (Nat.add_le_add h.in_le hx).trans_lt (by decide)

/-- **A leg that gains in numbers lowers the product of a pool.** -/
theorem exists_lowered (hvalid : config.validate = .ok ())
    (hword : config.pricing.virtualMultiplier < wordBound 64) :
    ∃ leg, trade (derivedPool X Y) SlipClass.derived.sample .native (.clamp x) config = .ok leg ∧
      leg.pool.balanceNative.toNat * leg.pool.balanceAsset.toNat <
        (derivedPool X Y).balanceNative.toNat * (derivedPool X Y).balanceAsset.toNat := by
  have hderived := derived_derivedPool h
  have hexact := unsaturated_derivedPool h hword
  have hx : (Amount.clamp x).toNat = x :=
    Amount.toNat_clamp_of_lt (h.input_le.trans_lt (by decide))
  obtain ⟨hin, hout⟩ := depths_derivedPool h
  obtain ⟨hpriced_in, hpriced_out⟩ := toNat_pricedDepths_derivedPool h hword
  have hquote := hderived.toNat_quote hvalid hword hexact
  rw [hin, hout, hx] at hquote
  obtain ⟨leg, htrade⟩ : ∃ leg, trade (derivedPool X Y) SlipClass.derived.sample .native
      (.clamp x) config = .ok leg := by
    refine exists_trade rfl rfl ?_ ?_ ?_
    · rw [hx]
      exact h.input_pos.ne'
    · rw [hpriced_in]
      exact h.depth_pos.ne'
    · rw [hquote, hpriced_out]
      exact h.through
  refine ⟨leg, htrade, Nat.not_le.mp fun hkept => ?_⟩
  obtain ⟨-, -, -, -, hemit, -⟩ := trade_inv htrade
  rw [hderived.kept_iff hexact htrade, hemit, hquote, hin, hout, hx] at hkept
  exact absurd hkept (Nat.not_le.mpr h.gain)

end

/-- **No leg lowers the product of a derived pool exactly when the multiplier and the floor are
conservative.** -/
theorem product_kept_iff (hvalid : config.validate = .ok ())
    (hword : config.pricing.virtualMultiplier < wordBound 64) :
    (∀ pool source target amount leg, Derived pool source target →
        Unsaturated pool source target amount config →
        trade pool source target amount config = .ok leg →
        pool.balanceNative.toNat * pool.balanceAsset.toNat ≤
          leg.pool.balanceNative.toNat * leg.pool.balanceAsset.toNat) ↔
      Scaled.Conservative config.pricing.virtualMultiplier config.slipFloors.derived := by
  obtain ⟨hpos, hfloor⟩ := Config.validate_inv hvalid
  constructor
  · intro hkept
    by_contra hnot
    obtain ⟨X, x, Y, hgains⟩ := Scaled.exists_gains hpos hword (hfloor .derived) hnot
    obtain ⟨leg, htrade, hless⟩ := exists_lowered hgains hvalid hword
    exact absurd (hkept _ _ _ _ leg (derived_derivedPool hgains)
      (unsaturated_derivedPool hgains hword) htrade) (Nat.not_le.mpr hless)
  · intro hsafe pool source target amount leg hderived hexact htrade
    obtain ⟨-, hamount, hdepth, -, hemit, -⟩ := trade_inv htrade
    rw [(hderived.toNat_pricedDepths hword hexact.scaled_in hexact.scaled_out).1] at hdepth
    rw [hderived.kept_iff hexact htrade, hemit, hderived.toNat_quote hvalid hword hexact]
    exact Scaled.emission_mul_le hsafe hpos (Nat.pos_of_ne_zero hamount) hderived.depths_pos.1
      (Nat.pos_of_ne_zero hdepth)

/-- At the default depths a sale of a thousandth of the pool leaves a larger product. -/
theorem product_kept_iff_default :
    let pool := derivedPool 1000000000000 1000000000000
    ({} : Config).validate = .ok () ∧ ({} : Config).pricing.virtualMultiplier < wordBound 64 ∧
      Derived pool pool.asset .native ∧ Unsaturated pool pool.asset .native 1000000000 {} ∧
      ∃ leg, trade pool pool.asset .native 1000000000 {} = .ok leg ∧ leg.emit = 999000749 ∧
        pool.balanceNative.toNat * pool.balanceAsset.toNat ≤
          leg.pool.balanceNative.toNat * leg.pool.balanceAsset.toNat := by
  intro pool
  have hderived : Derived pool pool.asset .native :=
    ⟨by decide, rfl, by decide, by decide, .inr ⟨rfl, rfl⟩⟩
  have hexact : Unsaturated pool pool.asset .native 1000000000 {} :=
    ⟨by decide +kernel, by decide +kernel, ⟨by decide +kernel, by decide +kernel,
      by decide +kernel, by decide +kernel⟩, by decide +kernel, fun hnative => by cases hnative⟩
  obtain ⟨leg, htrade⟩ : ∃ leg, trade pool pool.asset .native 1000000000 {} = .ok leg :=
    exists_trade (by decide) (by decide) (by decide) (by decide +kernel) (by decide +kernel)
  obtain ⟨-, -, -, -, hemit, -⟩ := trade_inv htrade
  exact ⟨by decide, by decide, hderived, hexact, leg, htrade, hemit.trans (by decide +kernel),
    (product_kept_iff (by decide) (by decide)).mpr (by decide) _ _ _ _ leg hderived hexact htrade⟩

/-- At tripled depths the same sale leaves a smaller one. -/
theorem product_lowered_tripled :
    let config : Config := { pricing := { virtualMultiplier := 30000 } }
    let pool := derivedPool 1000000000000 1000000000000
    config.validate = .ok () ∧ config.pricing.virtualMultiplier < wordBound 64 ∧
      Derived pool pool.asset .native ∧ Unsaturated pool pool.asset .native 1000000000 config ∧
      ∃ leg, trade pool pool.asset .native 1000000000 config = .ok leg ∧ leg.emit = 999333666 ∧
        leg.pool.balanceNative.toNat * leg.pool.balanceAsset.toNat <
          pool.balanceNative.toNat * pool.balanceAsset.toNat := by
  intro config pool
  have hderived : Derived pool pool.asset .native :=
    ⟨by decide, rfl, by decide, by decide, .inr ⟨rfl, rfl⟩⟩
  have hexact : Unsaturated pool pool.asset .native 1000000000 config :=
    ⟨by decide +kernel, by decide +kernel, ⟨by decide +kernel, by decide +kernel,
      by decide +kernel, by decide +kernel⟩, by decide +kernel, fun hnative => by cases hnative⟩
  obtain ⟨leg, htrade⟩ : ∃ leg, trade pool pool.asset .native 1000000000 config = .ok leg :=
    exists_trade (by decide) (by decide) (by decide) (by decide +kernel) (by decide +kernel)
  obtain ⟨-, -, -, -, hquote, -⟩ := trade_inv htrade
  have hemit : leg.emit = 999333666 := hquote.trans (by decide +kernel)
  refine ⟨by decide, by decide, hderived, hexact, leg, htrade, hemit, Nat.not_le.mp ?_⟩
  rw [hderived.kept_iff hexact htrade, hemit]
  decide

end Leg

end PoolExchange
