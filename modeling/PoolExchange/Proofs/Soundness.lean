import PoolExchange.Proofs.Curve
import PoolExchange.Proofs.Payment
import PoolExchange.Proofs.Trade
import PoolExchange.Proofs.Withdrawal

/-!
# Pool — soundness, and what drains a pool

A pool is *sound* under a synthetic supply when it validates with the units of that supply.  A
deposit leaves something on both sides, and a withdrawal either does so too or burns every unit of
the providers, so neither makes a sound pool unsound.

Two things do.  A payment *drains* a pool when the fee it keeps is worth the whole native side
(`Payout.Drains`), and a leg when it pays out all that there is (`Leg.Drains`).  The first needs a
pool that holds no more native than the outbound fee (`Payout.native_le_of_drains`), the second a
leg that is priced at scaled depths and exhausts its pool (`Leg.exhausts_of_drains`).
-/

namespace PoolExchange

/-! ### Sound pools -/

theorem synthUnitsOf_eq_zero (depth supply : Amount) {lpUnits : Amount} (h : lpUnits.toNat = 0) :
    (synthUnitsOf depth supply lpUnits).toNat = 0 := by
  simp only [synthUnitsOf]
  split
  · rfl
  · split
    · rfl
    · rw [Amount.toNat_div, Amount.toNat_mul, h, Nat.zero_mul, Nat.zero_min, Nat.zero_div]

namespace Pool

/-- The pool validates with the synthetic units of the supply. -/
def Sound (p : Pool) (supply : Amount) : Prop := (p.withSynths supply).validate = .ok ()

instance (p : Pool) (supply : Amount) : Decidable (p.Sound supply) :=
  inferInstanceAs (Decidable ((p.withSynths supply).validate = .ok ()))

variable {p : Pool} {supply : Amount}

/-- A pool is sound when it has no units, or both its sides hold something; synthetic units stand
in for the native side. -/
theorem sound_iff : p.Sound supply ↔ p.lpUnits.toNat = 0 ∨ p.balanceAsset.toNat ≠ 0 ∧
    (p.balanceNative.toNat ≠ 0 ∨ (synthUnitsOf p.balanceAsset supply p.lpUnits).toNat ≠ 0) := by
  have hunits : (p.withSynths supply).poolUnits.isZero = true ↔ p.lpUnits.toNat = 0 := by
    rw [Amount.isZero_iff, poolUnits, Amount.toNat_add_eq_zero]
    exact ⟨And.left, fun h => ⟨h, synthUnitsOf_eq_zero _ _ h⟩⟩
  rw [Sound, validate]
  by_cases hu : p.lpUnits.toNat = 0
  · rw [if_pos (hunits.mpr hu)]
    exact iff_of_true rfl (.inl hu)
  · rw [if_neg fun h => hu (hunits.mp h)]
    simp only [guard_eq_ok, Bool.and_eq_true, Amount.isZero_iff, withSynths_balanceAsset,
      withSynths_balanceNative, withSynths_synthUnits, not_and_or, and_true]
    exact ⟨.inr, fun h => h.resolve_left hu⟩

theorem sound_of_sides (hn : p.balanceNative.toNat ≠ 0) (ha : p.balanceAsset.toNat ≠ 0) :
    p.Sound supply :=
  sound_iff.mpr (.inr ⟨ha, .inl hn⟩)

theorem sound_of_lpUnits (h : p.lpUnits.toNat = 0) : p.Sound supply := sound_iff.mpr (.inl h)

/-- Soundness is about balances and units. -/
theorem Sound.congr {p' : Pool} (h : p.Sound supply) (hl : p'.lpUnits = p.lpUnits)
    (hn : p'.balanceNative = p.balanceNative) (ha : p'.balanceAsset = p.balanceAsset) :
    p'.Sound supply := by
  rw [sound_iff] at h ⊢
  rw [hl, hn, ha]
  exact h

end Pool

/-- **A deposit leaves a sound pool sound.** -/
theorem Deposit.sound_apply {d : Deposit} {pool : Pool} {provider : Provider} {supply : Amount}
    {o : Outcome} (hp : pool.Sound supply) (h : d.apply pool provider supply = .ok o) :
    o.pool.Sound supply := by
  rcases apply_cases h with ⟨-, -, rfl⟩ | h
  · exact hp.congr rfl rfl rfl
  · obtain ⟨-, -, -, -, hn, ha, -⟩ := credit_inv h
    exact Pool.sound_of_sides hn ha

namespace Withdrawal

variable {w : Withdrawal} {pool : Pool} {provider : Provider} {supply : Amount} {config : Config}
  {o : Outcome}

/-- **A redemption leaves something on both sides, or no units.** -/
theorem sound_redeem (h : w.redeem (pool.withSynths supply) provider supply config = .ok o) :
    o.pool.Sound supply := by
  obtain ⟨claimed, n, m, floor, r, -, -, hn, hm, hr, -, hnative, hasset, hsides, hpool⟩ :=
    redeem_shares h
  obtain ⟨-, hlp, hrest, hrest', -⟩ :=
    settle_fields (pool.withSynths supply) claimed r.native r.asset supply
  rw [← hpool] at hlp hrest hrest'
  obtain ⟨hle, hle'⟩ := Redemption.pay_le (provider.units - claimed) floor
    w.side
    (hn ▸ Amount.cappedShare_le claimed _ (pool.withSynths supply).balanceNative)
    (hm ▸ Amount.cappedShare_le claimed _ (pool.withSynths supply).balanceAsset)
  rw [← hr] at hle hle'
  by_cases hall : r.native = (pool.withSynths supply).balanceNative
  · -- both sides are paid in full, so the claim was of every unit
    have hall' := hsides.mp hall
    refine Pool.sound_of_lpUnits ?_
    have hshare : n = (pool.withSynths supply).balanceNative := by
      cases hside : w.side with
      | both =>
          rw [hside] at hr
          rw [← hall, hr]
          rfl
      | nativeOnly =>
          rw [hside] at hr
          rw [← hall', hr] at hasset
          exact absurd rfl hasset
      | assetOnly =>
          rw [hside] at hr
          rw [← hall, hr] at hnative
          exact absurd rfl hnative
    have hclaimed : (pool.withSynths supply).poolUnits.toNat ≤ claimed.toNat := by
      by_contra hlt
      have hless := Amount.cappedShare_lt (Nat.not_le.mp hlt) hnative
      rw [← hn, hshare] at hless
      exact absurd hless (Nat.lt_irrefl _)
    have hunits := Amount.le_toNat_add (pool.withSynths supply).lpUnits
      (pool.withSynths supply).synthUnits
    rw [hlp, Amount.toNat_sub]
    exact Nat.sub_eq_zero_of_le (hunits.trans hclaimed)
  · refine Pool.sound_of_sides ?_ ?_
    · rw [hrest, Amount.toNat_sub]
      have hne : r.native.toNat ≠ (pool.withSynths supply).balanceNative.toNat := fun e =>
        hall (Amount.ext e)
      omega
    · rw [hrest', Amount.toNat_sub]
      have hne : r.asset.toNat ≠ (pool.withSynths supply).balanceAsset.toNat := fun e =>
        hall (hsides.mpr (Amount.ext e))
      omega

/-- **A withdrawal leaves a sound pool sound.** -/
theorem sound_apply (hp : pool.Sound supply)
    (h : w.apply pool provider supply config = .ok o) : o.pool.Sound supply := by
  rcases apply_cases h with ⟨-, h⟩ | ⟨-, h⟩
  · obtain ⟨-, hpool, -⟩ := release_inv h
    rw [hpool]
    exact hp.congr rfl rfl rfl
  · exact sound_redeem h

end Withdrawal

/-! ### Legs -/

namespace Leg

/-- The leg leaves units behind and nothing on the side it pays from; synthetic units stand in
for the native side. -/
def Drains (leg : Leg) (supply : Amount) : Prop :=
  leg.pool.lpUnits.toNat ≠ 0 ∧
    if leg.source.isNative then leg.pool.balanceAsset.toNat = 0
    else leg.pool.balanceNative.toNat = 0 ∧
      (synthUnitsOf leg.pool.balanceAsset supply leg.pool.lpUnits).toNat = 0

variable {pool : Pool} {source target : Asset} {amount : Amount} {config : Config} {leg : Leg}

theorem scaleDepth_eq_zero {depth : Amount} (multiplier : Nat) (h : depth.toNat = 0) :
    (Curve.scaleDepth depth multiplier).toNat = 0 := by
  rw [Curve.scaleDepth, Amount.share, if_pos]
  · rfl
  · rw [Bool.or_eq_true, Amount.isZero_iff (a := depth)]
    exact .inr h

/-- **A leg needs something on both sides.** -/
theorem sides_of_trade (h : trade pool source target amount config = .ok leg) :
    pool.balanceNative.toNat ≠ 0 ∧ pool.balanceAsset.toNat ≠ 0 := by
  obtain ⟨-, -, hin, hout, -⟩ := trade_inv h
  have hdepths : (depths pool source).1.toNat ≠ 0 ∧ (depths pool source).2.toNat ≠ 0 := by
    rw [pricedDepths] at hin hout
    by_cases hv : isVirtual source target pool = true
    · rw [if_pos hv] at hin hout
      exact ⟨fun hz => hin (scaleDepth_eq_zero _ hz), fun hz => hout (scaleDepth_eq_zero _ hz)⟩
    · rw [if_neg hv] at hin hout
      exact ⟨hin, hout⟩
  rw [depths] at hdepths
  split at hdepths
  · exact hdepths
  · exact hdepths.symm

/-- **A leg leaves its pool sound, or drains it.** -/
theorem sound_iff (h : trade pool source target amount config = .ok leg) (supply : Amount) :
    leg.pool.Sound supply ↔ ¬ leg.Drains supply := by
  obtain ⟨hnative, hasset⟩ := sides_of_trade h
  obtain ⟨-, hamount, -, -, -, -, hpool, hsource, -⟩ := trade_inv h
  rw [Pool.sound_iff, Drains, hsource]
  cases hn : source.isNative with
  | true =>
      have hkept : leg.pool.balanceNative.toNat ≠ 0 := by
        rw [hpool, settle, if_pos hn]
        exact fun hz => hnative (Amount.toNat_add_eq_zero.mp hz).1
      simp only [if_true, hkept, not_false_eq_true, ne_eq, true_or, and_true, not_and]
      exact Classical.or_iff_not_imp_left
  | false =>
      have hkept : leg.pool.balanceAsset.toNat ≠ 0 := by
        rw [hpool, settle, if_neg (by simp [hn])]
        dsimp only
        split
        · exact hasset
        · exact fun hz => hasset (Amount.toNat_add_eq_zero.mp hz).1
      simp only [Bool.false_eq_true, if_false, hkept, not_false_eq_true, ne_eq, true_and, not_and]
      rw [Classical.or_iff_not_imp_left, Classical.or_iff_not_imp_left, not_not]

/-- A leg that drains pays out at least the whole of its output side. -/
theorem depths_le_of_drains (h : trade pool source target amount config = .ok leg)
    {supply : Amount} (hd : leg.Drains supply) :
    (depths pool source).2.toNat ≤ leg.emit.toNat := by
  obtain ⟨-, -, -, -, -, -, hpool, hsource, -⟩ := trade_inv h
  obtain ⟨-, hd⟩ := hd
  rw [hsource, hpool, settle] at hd
  rw [depths]
  cases hn : source.isNative with
  | true =>
      simp only [hn, if_true] at hd ⊢
      split at hd
      · exact absurd hd (sides_of_trade h).2
      · rw [Amount.toNat_sub] at hd
        exact Nat.sub_eq_zero_iff_le.mp hd
  | false =>
      simp only [hn, Bool.false_eq_true, if_false, Amount.toNat_sub] at hd ⊢
      exact Nat.sub_eq_zero_iff_le.mp hd.1

/-- **Only a leg priced at scaled depths can drain its pool.** -/
theorem isVirtual_of_drains (h : trade pool source target amount config = .ok leg)
    {supply : Amount} (hd : leg.Drains supply) : isVirtual source target pool = true := by
  by_contra hreal
  obtain ⟨-, -, -, -, -, hemit, -⟩ := trade_inv h
  rw [pricedDepths, if_neg hreal, Amount.lt_def] at hemit
  exact absurd (depths_le_of_drains h hd) (Nat.not_le.mpr hemit)

/-- **And only of its last unit**, unless there is a floor or the depths are more than doubled. -/
theorem emit_eq_one_of_drains (h : trade pool source target amount config = .ok leg)
    (hscale : config.pricing.virtualMultiplier ≤ 2 * fullBasisPoints)
    (hfloor : slipFloor source target config = 0) {supply : Amount} (hd : leg.Drains supply) :
    (depths pool source).2.toNat = 1 ∧ leg.emit.toNat = 1 := by
  obtain ⟨hnative, hasset⟩ := sides_of_trade h
  obtain ⟨-, -, -, -, hemit, -⟩ := trade_inv h
  have hle := depths_le_of_drains h hd
  have hpos : (depths pool source).2.toNat ≠ 0 := by
    rw [depths]
    split
    · exact hasset
    · exact hnative
  -- the emission is a quarter of a depth that is at most twice the balance it is paid from
  have hdouble : (pricedDepths pool source target config).2.toNat ≤
      2 * (depths pool source).2.toNat := by
    rw [pricedDepths, if_pos (isVirtual_of_drains h hd)]
    have hshare := Amount.share_mul_le (.clamp config.pricing.virtualMultiplier) Curve.full
      (depths pool source).2
    have hfull : Curve.full.toNat = fullBasisPoints := by decide
    rw [hfull] at hshare
    refine Nat.le_of_mul_le_mul_right (hshare.trans ?_) (show 0 < fullBasisPoints by decide)
    calc (Amount.clamp config.pricing.virtualMultiplier).toNat * (depths pool source).2.toNat
        ≤ 2 * fullBasisPoints * (depths pool source).2.toNat :=
          Nat.mul_le_mul_right _ ((Amount.toNat_clamp_le _).trans hscale)
      _ = 2 * (depths pool source).2.toNat * fullBasisPoints := by ring
  have hquote : leg.emit = Curve.emission (pricedDepths pool source target config).1 amount
      (pricedDepths pool source target config).2 := by
    have hnone : ¬ Curve.slip (pricedDepths pool source target config).1 amount < .clamp 0 :=
      Nat.not_lt_zero _
    rw [hemit, hfloor, Curve.quote, if_neg hnone]
  have hquarter := Curve.emission_quarter (pricedDepths pool source target config).1 amount
    (pricedDepths pool source target config).2
  rw [← hquote] at hquarter
  omega

/-- The leg trades with the pool at scaled depths and pays out all that is on its output side, which
is a single unit unless there is a floor or the depths are more than doubled. -/
structure Exhausts (leg : Leg) (pool : Pool) (config : Config) : Prop where
  traded : trade pool leg.source leg.target leg.input config = .ok leg
  scaled : isVirtual leg.source leg.target pool = true
  depths_le : (depths pool leg.source).2.toNat ≤ leg.emit.toNat
  last : config.pricing.virtualMultiplier ≤ 2 * fullBasisPoints →
    slipFloor leg.source leg.target config = 0 →
      (depths pool leg.source).2.toNat = 1 ∧ leg.emit.toNat = 1

/-- **A leg that drains its pool exhausts it.** -/
theorem exhausts_of_drains
    (h : trade pool leg.source leg.target leg.input config = .ok leg) {supply : Amount}
    (hd : leg.Drains supply) : leg.Exhausts pool config where
  traded := h
  scaled := isVirtual_of_drains h hd
  depths_le := depths_le_of_drains h hd
  last := fun hscale hfloor => emit_eq_one_of_drains h hscale hfloor hd

end Leg

/-! ### Payments -/

namespace Payout

/-- The coin is paid, and its fee is priced by the pool. -/
structure PricedBy (s : Store) (coin : Coin) (config : Config) (pool : Pool) : Prop where
  stored : s.pool? coin.asset = some pool
  foreign : coin.asset.isNative = false
  native : pool.balanceNative.toNat ≠ 0
  asset : pool.balanceAsset.toNat ≠ 0
  fee_lt : (feeOf pool coin config).toNat < coin.amount.toNat

/-- The payment keeps a fee that is worth the whole native side of its pool, and leaves units
behind that no synthetic supply stands for. -/
def Drains (s : Store) (coin : Coin) (config : Config) : Prop :=
  ∃ pool, PricedBy s coin config pool ∧ coin.asset.slipClass = .layer1 ∧
    pool.lpUnits.toNat ≠ 0 ∧
    pool.balanceNative ≤ pool.assetInNative (feeOf pool coin config) ∧
    (synthUnitsOf (pool.balanceAsset + feeOf pool coin config) (s.supply coin.asset)
      pool.lpUnits).toNat = 0

variable {s : Store} {coin : Coin} {config : Config} {pool : Pool}

theorem settled_of_pricedBy (h : PricedBy s coin config pool) :
    settled s coin config = keepFee s pool coin.asset (feeOf pool coin config) := by
  have hprice : pricingPool s coin.asset = .ok pool := by
    have hside : ¬ (pool.balanceNative.isZero || pool.balanceAsset.isZero) = true := by
      rw [Bool.or_eq_true, Amount.isZero_iff, Amount.isZero_iff]
      exact not_or.mpr ⟨h.native, h.asset⟩
    simp only [pricingPool, h.stored, if_neg hside]
  have hnet : ¬ (coin.amount - feeOf pool coin config).isZero = true := by
    rw [Amount.isZero_iff, Amount.toNat_sub]
    have := h.fee_lt
    omega
  have hcharge : charge s coin config = .ok (keepFee s pool coin.asset (feeOf pool coin config),
      ⟨⟨coin.asset, coin.amount - feeOf pool coin config⟩, feeOf pool coin config⟩) := by
    simp only [charge, h.foreign, Bool.false_eq_true, if_false, bind_eq_ok, pure_eq_ok]
    refine ⟨pool, hprice, _, ?_, rfl⟩
    show netOf coin (feeOf pool coin config) = _
    rw [netOf, if_neg hnet]
  rw [settled, hcharge]

theorem settled_of_unpriced (h : ∀ pool, ¬ PricedBy s coin config pool) :
    settled s coin config = s := by
  rcases settled_cases s coin config with hs | ⟨pool, hp, hf, hn, ha, hfee, -⟩
  · exact hs
  · exact absurd ⟨hp, hf, hn, ha, hfee⟩ (h pool)

/-- **A pool that keeps a fee stays sound, or is drained.** -/
theorem sound_charged_iff (hp : PricedBy s coin config pool)
    (hc : coin.asset.slipClass = .layer1) :
    Pool.Sound { pool with
        balanceAsset := pool.balanceAsset + feeOf pool coin config
        balanceNative := pool.balanceNative - pool.assetInNative (feeOf pool coin config) }
      (s.supply coin.asset) ↔ ¬ Drains s coin config := by
  have hdrains : Drains s coin config ↔ pool.lpUnits.toNat ≠ 0 ∧
      pool.balanceNative ≤ pool.assetInNative (feeOf pool coin config) ∧
      (synthUnitsOf (pool.balanceAsset + feeOf pool coin config) (s.supply coin.asset)
        pool.lpUnits).toNat = 0 := by
    constructor
    · rintro ⟨pool', hp', -, h⟩
      obtain rfl : pool' = pool := Option.some.inj (hp'.stored.symm.trans hp.stored)
      exact h
    · exact fun h => ⟨pool, hp, hc, h⟩
  have hkept : (pool.balanceAsset + feeOf pool coin config).toNat ≠ 0 := fun hz =>
    hp.asset (Amount.toNat_add_eq_zero.mp hz).1
  rw [Pool.sound_iff, hdrains, Amount.le_def, ← Nat.sub_eq_zero_iff_le, ← Amount.toNat_sub]
  simp only [hkept, ne_eq, not_false_eq_true, true_and, not_and, Classical.or_iff_not_imp_left,
    not_not]

/-- **Only a pool that holds no more native than the outbound fee can be drained by one.** -/
theorem native_le_of_drains (h : Drains s coin config) :
    ∃ pool, s.pool? coin.asset = some pool ∧
      pool.balanceNative.toNat ≤ config.pricing.outboundFee := by
  obtain ⟨pool, hp, -, -, hle, -⟩ := h
  refine ⟨pool, hp.stored, ?_⟩
  -- the fee is no more than the flat fee is worth, and is worth no more than it was taken for
  have hfee : (feeOf pool coin config).toNat * pool.balanceNative.toNat ≤
      pool.balanceAsset.toNat * config.pricing.outboundFee := by
    refine le_trans (Nat.mul_le_mul_right _ ?_)
      ((Amount.share_mul_le pool.balanceAsset pool.balanceNative _).trans
        (Nat.mul_le_mul_left _ (Amount.toNat_clamp_le _)))
    rw [feeOf, Amount.toNat_min]
    exact Nat.min_le_left _ _
  have hworth := Amount.share_mul_le pool.balanceNative pool.balanceAsset (feeOf pool coin config)
  refine Nat.le_of_mul_le_mul_right ?_ (Nat.pos_of_ne_zero hp.asset)
  calc pool.balanceNative.toNat * pool.balanceAsset.toNat
      ≤ (pool.assetInNative (feeOf pool coin config)).toNat * pool.balanceAsset.toNat :=
        Nat.mul_le_mul_right _ hle
    _ ≤ pool.balanceNative.toNat * (feeOf pool coin config).toNat := hworth
    _ = (feeOf pool coin config).toNat * pool.balanceNative.toNat := Nat.mul_comm _ _
    _ ≤ pool.balanceAsset.toNat * config.pricing.outboundFee := hfee
    _ = config.pricing.outboundFee * pool.balanceAsset.toNat := Nat.mul_comm _ _

end Payout

end PoolExchange
