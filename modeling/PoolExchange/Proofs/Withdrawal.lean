import PoolExchange.Proofs.Curve
import PoolExchange.Proofs.Deposit
import PoolExchange.Withdrawal

/-!
# Withdrawal — what a withdrawal that succeeds has done

A provider without units gets everything pending back (`release_inv`); any other redeems units for
a `Redemption` that leaves both sides of the pool empty or neither (`redeem_inv`).
-/

namespace PoolExchange

namespace Redemption

/-- **Inversion of a redemption.**  Both sides hold something, and so does the provider. -/
theorem fromPool_inv {asset : Asset} {poolUnits native rest units : Amount} {bps : Nat}
    {side : WithdrawSide} {config : Config} {r : Redemption}
    (h : fromPool asset poolUnits native rest units bps side config = .ok r) :
    poolUnits.toNat ≠ 0 ∧ native.toNat ≠ 0 ∧ rest.toNat ≠ 0 ∧ units.toNat ≠ 0 ∧
      checkBasisPoints bps = .ok () ∧
      r = pay (Amount.cappedShare (claim bps units) poolUnits native)
        (Amount.cappedShare (claim bps units) poolUnits rest)
        (native - Amount.cappedShare (claim bps units) poolUnits native)
        (rest - Amount.cappedShare (claim bps units) poolUnits rest)
        (units - claim bps units) (.clamp (config.slipFloors.forClass asset.slipClass)) side := by
  simp only [fromPool, guard_eq_ok, bind_eq_ok, pure_eq_ok, Amount.isZero_iff] at h
  obtain ⟨h₁, h₂, h₃, h₄, _, hbps, rfl⟩ := h
  exact ⟨h₁, h₂, h₃, h₄, hbps, rfl⟩

/-- Whatever the side, a redemption leaves the units that were not claimed. -/
theorem pay_unitsAfter (native asset restNative restAsset after floor : Amount)
    (side : WithdrawSide) :
    (pay native asset restNative restAsset after floor side).unitsAfter = after := by
  cases side <;> rfl

/-- A redemption pays no more than there is. -/
theorem pay_le (after floor : Amount) (side : WithdrawSide) {native asset n m : Amount}
    (hn : n.toNat ≤ native.toNat) (hm : m.toNat ≤ asset.toNat) :
    (pay n m (native - n) (asset - m) after floor side).native.toNat ≤ native.toNat ∧
      (pay n m (native - n) (asset - m) after floor side).asset.toNat ≤ asset.toNat := by
  cases side with
  | both => exact ⟨hn, hm⟩
  | nativeOnly =>
      refine ⟨(Amount.toNat_add_le _ _).trans ?_, Nat.zero_le _⟩
      have hemit := Curve.quote_le (asset - m) m (native - n) floor
      rw [Amount.toNat_sub] at hemit
      omega
  | assetOnly =>
      refine ⟨Nat.zero_le _, (Amount.toNat_add_le _ _).trans ?_⟩
      have hemit := Curve.quote_le (native - n) n (asset - m) floor
      rw [Amount.toNat_sub] at hemit
      omega

end Redemption

namespace Withdrawal

variable {w : Withdrawal} {pool : Pool} {provider : Provider} {supply : Amount}
  {config : Config} {o : Outcome}

/-- The pool without what is pending for `provider`. -/
def released (pool : Pool) (provider : Provider) : Pool :=
  { pool with
    pendingNative := pool.pendingNative - provider.pendingNative
    pendingAsset := pool.pendingAsset - provider.pendingAsset }

/-- **Inversion of a return.** -/
theorem release_inv (h : w.release pool provider = .ok o) :
    provider.hasPending = true ∧ o.pool = released pool provider ∧
      o.provider.key = provider.key ∧ o.provider.units = provider.units ∧
      o.provider.pendingNative = 0 ∧ o.provider.pendingAsset = 0 := by
  rw [release, guard_eq_ok] at h
  obtain ⟨hp, h⟩ := h
  obtain rfl := Except.ok.inj h
  exact ⟨by simpa using hp, rfl, rfl, rfl, rfl, rfl⟩

/-- What is returned is what was pending. -/
theorem release_paid (h : w.release pool provider = .ok o) :
    o.native = provider.pendingNative ∧ o.asset = provider.pendingAsset := by
  rw [release, guard_eq_ok] at h
  obtain rfl := Except.ok.inj h.2
  exact ⟨rfl, rfl⟩

theorem valued_units (pool : Pool) (provider : Provider) :
    (valued pool provider).units = provider.units := by
  rw [valued]
  split <;> rfl

theorem valued_pendingNative (pool : Pool) (provider : Provider) :
    (valued pool provider).pendingNative = provider.pendingNative := by
  rw [valued]
  split <;> rfl

theorem valued_pendingAsset (pool : Pool) (provider : Provider) :
    (valued pool provider).pendingAsset = provider.pendingAsset := by
  rw [valued]
  split <;> rfl

theorem valued_key (pool : Pool) (provider : Provider) :
    (valued pool provider).key = provider.key := by
  rw [valued]
  split <;> rfl

/-- **Inversion of a redemption by a provider.** -/
theorem redeem_inv (h : w.redeem pool provider supply config = .ok o) :
    ∃ r, Redemption.fromPool pool.asset pool.poolUnits pool.balanceNative pool.balanceAsset
        provider.units w.basisPoints w.side config = .ok r ∧
      (r.native = pool.balanceNative ↔ r.asset = pool.balanceAsset) ∧
      r.unitsAfter < provider.units ∧
      o.pool = settle pool (provider.units - r.unitsAfter) r.native r.asset supply ∧
      o.provider.key = provider.key ∧ o.provider.units = r.unitsAfter ∧
      o.provider.pendingNative = provider.pendingNative ∧
      o.provider.pendingAsset = provider.pendingAsset := by
  simp only [redeem, valued_units, bind_eq_ok, guard_eq_ok] at h
  obtain ⟨r, hr, hside, hle, h⟩ := h
  obtain rfl := Except.ok.inj h
  refine ⟨r, hr, ?_, Amount.lt_def.mpr (Nat.not_le.mp hle), rfl, valued_key pool provider, rfl,
    valued_pendingNative pool provider, valued_pendingAsset pool provider⟩
  rw [ne_eq, eq_iff_iff, not_not] at hside
  exact hside

/-- **A redemption in terms of its shares.**  The units claimed are burned, and what is paid comes
from the two shares that they stand for. -/
theorem redeem_shares (h : w.redeem pool provider supply config = .ok o) :
    ∃ claimed n m floor r,
      0 < claimed.toNat ∧ claimed.toNat ≤ provider.units.toNat ∧
      n = Amount.cappedShare claimed pool.poolUnits pool.balanceNative ∧
      m = Amount.cappedShare claimed pool.poolUnits pool.balanceAsset ∧
      r = Redemption.pay n m (pool.balanceNative - n) (pool.balanceAsset - m)
        (provider.units - claimed) floor w.side ∧
      pool.poolUnits.toNat ≠ 0 ∧ pool.balanceNative.toNat ≠ 0 ∧ pool.balanceAsset.toNat ≠ 0 ∧
      (r.native = pool.balanceNative ↔ r.asset = pool.balanceAsset) ∧
      o.pool = settle pool claimed r.native r.asset supply := by
  obtain ⟨r, hr, hside, hlt, hpool, -⟩ := redeem_inv h
  obtain ⟨hunits, hnative, hasset, -, -, hpay⟩ := Redemption.fromPool_inv hr
  have hle : (Redemption.claim w.basisPoints provider.units).toNat ≤ provider.units.toNat :=
    Amount.cappedShare_le _ _ _
  have hlt := Amount.lt_def.mp hlt
  -- what is burned is what the basis points claim
  have hburnt : provider.units - r.unitsAfter = Redemption.claim w.basisPoints provider.units := by
    rw [hpay, Redemption.pay_unitsAfter]
    refine Amount.ext ?_
    rw [Amount.toNat_sub, Amount.toNat_sub]
    omega
  rw [hburnt] at hpool
  refine ⟨_, _, _, _, r, ?_, hle, rfl, rfl, hpay, hunits, hnative, hasset, hside, hpool⟩
  rw [← hburnt, Amount.toNat_sub]
  omega

/-- A withdrawal that succeeds returns what is pending or redeems units. -/
theorem apply_cases (h : w.apply pool provider supply config = .ok o) :
    (provider.units.toNat = 0 ∧ w.release (pool.withSynths supply) provider = .ok o) ∨
      (provider.units.toNat ≠ 0 ∧
        w.redeem (pool.withSynths supply) provider supply config = .ok o) := by
  simp only [apply, bind_eq_ok] at h
  obtain ⟨-, -, h⟩ := h
  split at h
  · rename_i hz
    exact .inl ⟨Amount.isZero_iff.mp hz, h⟩
  · rename_i hz
    exact .inr ⟨fun e => hz (Amount.isZero_iff.mpr e), h⟩

/-- Settling moves units and balances only, whatever becomes of the status. -/
theorem settle_fields (pool : Pool) (redeemed native asset supply : Amount) :
    (settle pool redeemed native asset supply).asset = pool.asset ∧
      (settle pool redeemed native asset supply).lpUnits = pool.lpUnits - redeemed ∧
      (settle pool redeemed native asset supply).balanceNative = pool.balanceNative - native ∧
      (settle pool redeemed native asset supply).balanceAsset = pool.balanceAsset - asset ∧
      (settle pool redeemed native asset supply).pendingNative = pool.pendingNative ∧
      (settle pool redeemed native asset supply).pendingAsset = pool.pendingAsset ∧
      (settle pool redeemed native asset supply).synthUnits =
        synthUnitsOf (pool.balanceAsset - asset) supply (pool.lpUnits - redeemed) := by
  simp only [settle]
  split <;> exact ⟨rfl, rfl, rfl, rfl, rfl, rfl, rfl⟩

/-- What is redeemed comes out of the balances. -/
theorem redeem_paid (h : w.redeem pool provider supply config = .ok o) :
    o.native.toNat ≤ pool.balanceNative.toNat ∧ o.asset.toNat ≤ pool.balanceAsset.toNat ∧
      o.pool.balanceNative = pool.balanceNative - o.native ∧
      o.pool.balanceAsset = pool.balanceAsset - o.asset ∧
      o.pool.pendingNative = pool.pendingNative ∧ o.pool.pendingAsset = pool.pendingAsset := by
  simp only [redeem, valued_units, bind_eq_ok, guard_eq_ok] at h
  obtain ⟨r, hr, -, -, h⟩ := h
  obtain rfl := Except.ok.inj h
  obtain ⟨-, -, -, -, -, rfl⟩ := Redemption.fromPool_inv hr
  obtain ⟨hnative, hasset⟩ := Redemption.pay_le (provider.units - _) _ w.side
    (Amount.cappedShare_le _ pool.poolUnits pool.balanceNative)
    (Amount.cappedShare_le _ pool.poolUnits pool.balanceAsset)
  obtain ⟨-, -, hbn, hba, hpn, hpa, -⟩ := settle_fields pool (provider.units - _) _ _ supply
  exact ⟨hnative, hasset, hbn, hba, hpn, hpa⟩

/-- A withdrawal stays in its pool and with its provider. -/
theorem apply_keys (h : w.apply pool provider supply config = .ok o) :
    o.pool.asset = pool.asset ∧ o.provider.key = provider.key := by
  rcases apply_cases h with ⟨-, h⟩ | ⟨-, h⟩
  · obtain ⟨-, hpool, hkey, -⟩ := release_inv h
    exact ⟨by rw [hpool]; rfl, hkey⟩
  · obtain ⟨r, -, -, -, hpool, hkey, -⟩ := redeem_inv h
    exact ⟨by rw [hpool, (settle_fields _ _ _ _ _).1]; rfl, hkey⟩

end Withdrawal

end PoolExchange
