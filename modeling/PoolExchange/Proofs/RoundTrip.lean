import PoolExchange.Proofs.Exit
import PoolExchange.Proofs.UnitValue

/-!
# RoundTrip — a deposit redeemed at once makes no profit

A deposit of `r` and `a` into balances `R` and `A` is worth `N = r * A + a * R + 2 * r * a` against
`D = r * A + a * R + 2 * R * A`, and brings `N / D` of the units there are.  The two add up to twice
the product of the balances after it, and `N` is the deposit itself at those balances, each side
valued by the other: so the new units' share of both sides is worth what was paid in, whatever the
deposit's proportions, and all rounding is in favour of the pool (`round_trip_le`).

**Who deposits into a pool and redeems the units at once can always do so, and gets no more than was
paid in** (`Deposit.redeemed_le_deposited`).
-/

namespace PoolExchange

/-! ### The arithmetic -/

/-- Of shares `n` and `m` of the balances after a deposit, each rounded down, and units `u` rounded
down before. -/
theorem round_trip_le {R A r a P u n m : Nat} (hP : 0 < P)
    (hissued : u * (r * A + a * R + 2 * A * R) ≤ P * (r * A + a * R + 2 * r * a))
    (hn : n * (P + u) ≤ u * (R + r)) (hm : m * (P + u) ≤ u * (A + a)) :
    n * (A + a) + m * (R + r) ≤ r * (A + a) + a * (R + r) := by
  -- the units' share of the units after the deposit is the deposit's share of the value after it
  have hshare : u * (2 * ((R + r) * (A + a))) ≤ (r * (A + a) + a * (R + r)) * (P + u) := by
    calc u * (2 * ((R + r) * (A + a)))
        = u * (r * A + a * R + 2 * A * R) + u * (r * A + a * R + 2 * r * a) := by ring
      _ ≤ P * (r * A + a * R + 2 * r * a) + u * (r * A + a * R + 2 * r * a) :=
          Nat.add_le_add_right hissued _
      _ = (r * (A + a) + a * (R + r)) * (P + u) := by ring
  refine Nat.le_of_mul_le_mul_right ?_ (Nat.add_pos_left hP u)
  calc (n * (A + a) + m * (R + r)) * (P + u)
      = n * (P + u) * (A + a) + m * (P + u) * (R + r) := by ring
    _ ≤ u * (R + r) * (A + a) + u * (A + a) * (R + r) :=
        Nat.add_le_add (Nat.mul_le_mul_right _ hn) (Nat.mul_le_mul_right _ hm)
    _ = u * (2 * ((R + r) * (A + a))) := by ring
    _ ≤ _ := hshare

namespace Issue

variable {units native asset addNative addAsset : Amount} {i : Issue}

/-- What an issue computes on its way leaves room: the balances after the deposit are amounts, and
so are the units in any finer part up to eighteen places. -/
theorem forPool_fits (h : forPool units native asset addNative addAsset = .ok i)
    (hnative : native.toNat ≠ 0) (hasset : asset.toNat ≠ 0) (hunits : units.toNat ≠ 0) :
    native.toNat + addNative.toNat < Amount.bound ∧ asset.toNat + addAsset.toNat < Amount.bound ∧
      i.issued.toNat * Fixed.scale.toNat < Amount.bound := by
  obtain ⟨hfits, hissued, -⟩ := (forPool_eq_ok hunits hnative hasset).mp h
  exact ⟨hfits.native_total, hfits.asset_total, hissued ▸ hfits.whole⟩

end Issue

/-! ### Redeeming everything -/

/-- A redemption of everything burns all units. -/
theorem Withdrawal.unitsRedeemed_full {height : Nat} {pool : Pool} {provider : Provider}
    {supply : Amount} {config : Config} {o : Outcome}
    (h : (full height).apply pool provider supply config = .ok o)
    (hunits : provider.units.toNat ≠ 0)
    (hfit : fullBasisPoints * provider.units.toNat < Amount.bound) :
    o.unitsRedeemed = provider.units := by
  obtain ⟨hzero, -⟩ | ⟨-, h⟩ := apply_cases h
  · exact absurd hzero hunits
  · simp only [redeem, valued_units, bind_eq_ok, guard_eq_ok] at h
    obtain ⟨r, hr, -, -, h⟩ := h
    obtain rfl := Except.ok.inj h
    obtain ⟨-, -, -, -, -, rfl⟩ := Redemption.fromPool_inv hr
    rw [Redemption.pay_unitsAfter]
    show provider.units - (provider.units - Redemption.claim fullBasisPoints provider.units) = _
    rw [claim_full hfit]
    exact Amount.ext (by rw [Amount.toNat_sub, Amount.toNat_sub]; omega)

/-! ### There and back -/

namespace Deposit

variable {d : Deposit} {pool : Pool} {provider : Provider} {o : Outcome}

/-- Who has nothing in the pool has nothing pending either. -/
theorem closed_inv (h : provider.isClosed = true) :
    provider.units = 0 ∧ provider.pendingNative = 0 ∧ provider.pendingAsset = 0 := by
  simp only [Provider.isClosed, Provider.hasPending, Bool.and_eq_true, Bool.not_eq_true',
    Bool.or_eq_false_iff, Bool.not_eq_false', Amount.isZero_iff] at h
  exact ⟨Amount.eq_zero_iff.mpr h.1, Amount.eq_zero_iff.mpr h.2.1, Amount.eq_zero_iff.mpr h.2.2⟩

/-- **A deposit of someone with nothing in the pool**, as exact numbers: what it adds to the
balances and to the units, and that the units are at most its share. -/
theorem credited_exactly (hclosed : provider.isClosed = true)
    (hnative : pool.balanceNative.toNat ≠ 0) (hasset : pool.balanceAsset.toNat ≠ 0)
    (hunits : pool.lpUnits.toNat ≠ 0) (ho : d.apply pool provider 0 = .ok o)
    (hissued : o.unitsIssued.toNat ≠ 0)
    (hfit : pool.lpUnits.toNat + o.unitsIssued.toNat < Amount.bound) :
    o.provider.units = o.unitsIssued ∧
      o.pool.lpUnits.toNat = pool.lpUnits.toNat + o.unitsIssued.toNat ∧
      o.pool.balanceNative.toNat = pool.balanceNative.toNat + d.native.toNat ∧
      o.pool.balanceAsset.toNat = pool.balanceAsset.toNat + d.asset.toNat ∧
      fullBasisPoints * o.unitsIssued.toNat < Amount.bound ∧
      o.unitsIssued.toNat * (d.native.toNat * pool.balanceAsset.toNat +
          d.asset.toNat * pool.balanceNative.toNat +
          2 * pool.balanceAsset.toNat * pool.balanceNative.toNat) ≤
        pool.lpUnits.toNat * (d.native.toNat * pool.balanceAsset.toNat +
          d.asset.toNat * pool.balanceNative.toNat + 2 * d.native.toNat * d.asset.toNat) := by
  obtain ⟨hown, hpendingNative, hpendingAsset⟩ := closed_inv hclosed
  obtain ⟨-, -, rfl⟩ | hcredit := apply_cases ho
  · -- a deposit that is held issues nothing
    exact absurd rfl hissued
  · obtain ⟨issue, hissue, hu, hpool, -, -, -, hafter, -⟩ := credit_inv hcredit
    rw [hpendingNative, hpendingAsset, Amount.zero_add, Amount.zero_add,
      Withdrawal.poolUnits_withSynths_zero] at hissue
    obtain ⟨hfitNative, hfitAsset, hfitUnits⟩ :=
      Issue.forPool_fits hissue hnative hasset hunits
    rw [hu] at hfit ⊢
    refine ⟨?_, ?_, ?_, ?_, ?_, ?_⟩
    · rw [hafter, hown, Amount.zero_add]
    · rw [hpool]
      exact Amount.toNat_add_of_lt hfit
    · rw [hpool, Pool.withSynths_balanceNative, credited, hpendingNative, Amount.zero_add]
      exact Amount.toNat_add_of_lt hfitNative
    · rw [hpool, Pool.withSynths_balanceAsset, credited, hpendingAsset, Amount.zero_add]
      exact Amount.toNat_add_of_lt hfitAsset
    · refine lt_of_le_of_lt ?_ hfitUnits
      rw [Nat.mul_comm]
      exact Nat.mul_le_mul_left _ (by decide)
    · obtain hz | hexact := Issue.forPool_inv hissue
      · exact absurd hz (by rw [not_or, not_or]; exact ⟨hnative, hasset, hunits⟩)
      · rw [hexact]
        exact Nat.div_mul_le_self _ _

/-- **A deposit redeemed at once makes no profit.**  Into a pool with units and something on both
sides, and no synthetic supply, someone who has nothing there makes a deposit, in any proportions,
that brings units.  All of them can then be redeemed on both sides.  What is paid is worth no more
than what was deposited, each side valued at the balances after the deposit, and the pool is left
with the units it had. -/
theorem redeemed_le_deposited (config : Config) (hclosed : provider.isClosed = true)
    (hnative : pool.balanceNative.toNat ≠ 0) (hasset : pool.balanceAsset.toNat ≠ 0)
    (hunits : pool.lpUnits.toNat ≠ 0) (ho : d.apply pool provider 0 = .ok o)
    (hissued : o.unitsIssued.toNat ≠ 0)
    (hfit : pool.lpUnits.toNat + o.unitsIssued.toNat < Amount.bound) (height : Nat) :
    ∃ out, (Withdrawal.full height).apply o.pool o.provider 0 config = .ok out ∧
      out.native.toNat * o.pool.balanceAsset.toNat + out.asset.toNat * o.pool.balanceNative.toNat ≤
        d.native.toNat * o.pool.balanceAsset.toNat + d.asset.toNat * o.pool.balanceNative.toNat ∧
      out.unitsRedeemed = o.unitsIssued ∧ out.pool.lpUnits = pool.lpUnits := by
  obtain ⟨hprovider, hlp, hbn, hba, hclaim, hshare⟩ :=
    credited_exactly hclosed hnative hasset hunits ho hissued hfit
  -- the pool had units before, so the new ones are less than all and no side is drained
  have hless : o.provider.units.toNat < o.pool.lpUnits.toNat := by
    rw [hprovider, hlp]
    omega
  have hn := @Amount.cappedShare_lt _ _ o.pool.balanceNative hless (by omega)
  have hm := @Amount.cappedShare_lt _ _ o.pool.balanceAsset hless (by omega)
  obtain ⟨out, hout, hpaidNative, hpaidAsset, hsettled⟩ :=
    Withdrawal.leave config (hprovider ▸ hclaim) (hprovider ▸ hissued) hless.le (by omega)
      (by omega)
      (iff_of_false (fun e => hn.ne (congrArg Amount.toNat e))
        fun e => hm.ne (congrArg Amount.toNat e)) height
  refine ⟨out, hout, ?profit, ?redeemed, ?left⟩
  case profit =>
    have hnShare := Amount.cappedShare_mul_le o.provider.units o.pool.lpUnits o.pool.balanceNative
    have hmShare := Amount.cappedShare_mul_le o.provider.units o.pool.lpUnits o.pool.balanceAsset
    rw [← hpaidNative, hprovider, hlp, hbn] at hnShare
    rw [← hpaidAsset, hprovider, hlp, hba] at hmShare
    rw [hbn, hba]
    exact round_trip_le (Nat.pos_of_ne_zero hunits) hshare hnShare hmShare
  case redeemed =>
    rw [Withdrawal.unitsRedeemed_full hout (hprovider ▸ hissued) (hprovider ▸ hclaim), hprovider]
  case left =>
    refine Amount.ext ?_
    rw [hsettled, (Withdrawal.settle_fields _ _ _ _ _).2.1, Amount.toNat_sub, hprovider,
      Pool.withSynths_lpUnits, hlp]
    omega

/-- One part of native and three of bitcoin, into a pool with two of native for one of bitcoin. -/
def lopsided : Deposit := ⟨1000000, 3000000, ⟨"01"⟩, false, 1⟩

/-- The deposit brings 3493771 units, and they are redeemed for more native than was deposited and
less bitcoin. -/
theorem redeemed_le_deposited_lopsided :
    let pool := btcPool 1000000000 500000000 1000000000
    let owner := Provider.new pool.asset ⟨"alice"⟩
    owner.isClosed = true ∧ pool.balanceNative.toNat ≠ 0 ∧ pool.balanceAsset.toNat ≠ 0 ∧
      pool.lpUnits.toNat ≠ 0 ∧
      ∃ o, lopsided.apply pool owner 0 = .ok o ∧ o.unitsIssued.toNat ≠ 0 ∧
        pool.lpUnits.toNat + o.unitsIssued.toNat < Amount.bound ∧
        ∃ out, (Withdrawal.full 1).apply o.pool o.provider 0 {} = .ok out ∧
          out.native.toNat * o.pool.balanceAsset.toNat +
              out.asset.toNat * o.pool.balanceNative.toNat ≤
            lopsided.native.toNat * o.pool.balanceAsset.toNat +
              lopsided.asset.toNat * o.pool.balanceNative.toNat ∧
          out.unitsRedeemed = o.unitsIssued ∧ out.pool.lpUnits = pool.lpUnits := by
  intro pool owner
  have hok : (lopsided.apply pool owner 0).isOk = true := by decide +kernel
  have hissued : (lopsided.apply pool owner 0).map (fun o => o.unitsIssued) = .ok 3493771 := by
    decide +kernel
  refine ⟨by decide, by decide, by decide, by decide, ?_⟩
  cases ho : lopsided.apply pool owner 0 with
  | error e =>
      rw [ho] at hok
      cases hok
  | ok o =>
      rw [ho] at hissued
      have hu : o.unitsIssued = 3493771 := Except.ok.inj hissued
      have hne : o.unitsIssued.toNat ≠ 0 := by rw [hu]; decide
      have hfit : pool.lpUnits.toNat + o.unitsIssued.toNat < Amount.bound := by rw [hu]; decide
      exact ⟨o, rfl, hne, hfit,
        redeemed_le_deposited {} (by decide) (by decide) (by decide) (by decide) ho hne hfit 1⟩

end Deposit

end PoolExchange
