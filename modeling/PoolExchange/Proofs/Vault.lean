import PoolExchange.Proofs.UnitValue

/-!
# Vault — a deposit on one side, for the depositor and for everybody else

A vault of `P` units over a depth `D` issues `u = a * P / D` units for a deposit of `a`, and pays
`c * D / P` for `c` units, both rounded down.  The rounding of the issue leaves the depth behind
each unit at least what it was, `(P + u) * D ≤ P * (D + a)` (`vault_unit_value`), and that of the
payment leaves the depth behind each unit that remains at least what it was (`fromVault_rest`).

**A deposit neither profits nor dilutes** (`Issue.forVault_fair`): who redeems the issued units at
once gets at most the deposit back, and all others can redeem at least what they could before.
-/

namespace PoolExchange

/-! ### The arithmetic -/

/-- Units issued for at most their share of the depth leave at least as much of it behind each. -/
theorem vault_unit_value {P D a u : Nat} (hissued : u * D ≤ a * P) :
    (P + u) * D ≤ P * (D + a) := by
  calc (P + u) * D = P * D + u * D := Nat.add_mul _ _ _
    _ ≤ P * D + a * P := Nat.add_le_add_left hissued _
    _ = P * (D + a) := by ring

/-- The issued units are paid at most the deposit. -/
theorem vault_round_trip {P D a u p : Nat} (hP : 0 < P) (hissued : u * D ≤ a * P)
    (hpaid : p * (P + u) ≤ u * (D + a)) : p ≤ a := by
  refine Nat.le_of_mul_le_mul_right ?_ (Nat.add_pos_left hP u)
  calc p * (P + u) ≤ u * (D + a) := hpaid
    _ = u * D + a * u := by ring
    _ ≤ a * P + a * u := Nat.add_le_add_right hissued _
    _ = a * (P + u) := (Nat.mul_add _ _ _).symm

/-! ### Redemptions -/

namespace Redemption

variable {units depth lpUnits : Amount} {bps : Nat}

theorem claim_le (bps : Nat) (units : Amount) : (claim bps units).toNat ≤ units.toNat :=
  Amount.cappedShare_le _ _ _

/-- Nothing is claimed of nothing, nor by no basis points. -/
theorem claim_degenerate (h : units.toNat = 0 ∨ bps = 0) : claim bps units = 0 := by
  rcases h with hz | rfl
  · obtain rfl := Amount.eq_zero_iff.mpr hz
    exact Amount.ext (Nat.le_zero.mp (claim_le bps 0))
  · rfl

/-- What a vault pays is a share of the depth, also where the redemption is refused. -/
theorem fromVault_asset : (fromVault units depth lpUnits bps).asset =
    Amount.cappedShare (claim (min bps fullBasisPoints) lpUnits) units depth := by
  rw [fromVault]
  split
  · rename_i hnone
    simp only [Bool.or_eq_true, Amount.isZero_iff, decide_eq_true_eq] at hnone
    obtain ((hunits | hlp) | hdepth) | hbps := hnone
    · simp [Amount.cappedShare, Amount.isZero, hunits]
    · rw [claim_degenerate (.inl hlp)]
      simp [Amount.cappedShare, Amount.isZero]
    · refine Amount.ext (Nat.le_zero.mp ?_).symm
      exact hdepth ▸ Amount.cappedShare_le _ units depth
    · rw [claim_degenerate (.inr (by rw [hbps]; rfl))]
      simp [Amount.cappedShare, Amount.isZero]
  · rfl

/-- A payment is at most the burned units' share of the depth. -/
theorem fromVault_mul_le (units depth lpUnits : Amount) (bps : Nat) :
    (fromVault units depth lpUnits bps).asset.toNat * units.toNat ≤
      (lpUnits.toNat - (fromVault units depth lpUnits bps).unitsAfter.toNat) * depth.toNat := by
  rw [fromVault]
  split
  · simp
  · have hburned : lpUnits.toNat - (lpUnits - claim (min bps fullBasisPoints) lpUnits).toNat =
        (claim (min bps fullBasisPoints) lpUnits).toNat := by
      rw [Amount.toNat_sub]
      exact Nat.sub_sub_self (claim_le _ _)
    rw [hburned]
    exact Amount.cappedShare_mul_le _ _ _

/-- **What remains of a vault** after a redemption is at least its remaining units' part of what it
held. -/
theorem fromVault_rest (units depth lpUnits : Amount) (bps : Nat) :
    depth.toNat *
        (units.toNat - (lpUnits.toNat - (fromVault units depth lpUnits bps).unitsAfter.toNat)) ≤
      (depth.toNat - (fromVault units depth lpUnits bps).asset.toNat) * units.toNat :=
  rest_mul_le (fromVault_mul_le units depth lpUnits bps)

/-- **A vault that is worth more for each unit pays no less** for units that it has, if the payment
is computed without stopping at the largest amount. -/
theorem fromVault_le_of_unit_value {units' depth' : Amount} (hunits : units.toNat ≠ 0)
    (hmore : units.toNat ≤ units'.toNat)
    (hvalue : units'.toNat * depth.toNat ≤ units.toNat * depth'.toNat)
    (hheld : lpUnits.toNat ≤ units.toNat)
    (hfit : (claim (min bps fullBasisPoints) lpUnits).toNat * depth'.toNat < Amount.bound) :
    (fromVault units depth lpUnits bps).asset ≤ (fromVault units' depth' lpUnits bps).asset := by
  rw [fromVault_asset, fromVault_asset, Amount.le_def]
  set c := claim (min bps fullBasisPoints) lpUnits
  have hpos : 0 < units.toNat := Nat.pos_of_ne_zero hunits
  have hc : Min.min c.toNat units'.toNat = c.toNat :=
    Nat.min_eq_left (((claim_le _ _).trans hheld).trans hmore)
  have hpaid : (Amount.cappedShare c units' depth').toNat =
      c.toNat * depth'.toNat / units'.toNat := by
    rw [Amount.toNat_cappedShare_of_lt (by rw [hc]; exact hfit), hc]
  rw [hpaid, Nat.le_div_iff_mul_le (hpos.trans_le hmore)]
  refine Nat.le_of_mul_le_mul_right ?_ hpos
  calc (Amount.cappedShare c units depth).toNat * units'.toNat * units.toNat
      = (Amount.cappedShare c units depth).toNat * units.toNat * units'.toNat := by ring
    _ ≤ c.toNat * depth.toNat * units'.toNat :=
        Nat.mul_le_mul_right _ (Amount.cappedShare_mul_le c units depth)
    _ = c.toNat * (units'.toNat * depth.toNat) := by ring
    _ ≤ c.toNat * (units.toNat * depth'.toNat) := Nat.mul_le_mul_left _ hvalue
    _ = c.toNat * depth'.toNat * units.toNat := by ring

end Redemption

/-! ### Deposits -/

namespace Issue

variable {units depth add : Amount}

/-- A vault with units and depth issues the deposit's share of its units. -/
theorem forVault_eq (hunits : units.toNat ≠ 0) (hdepth : depth.toNat ≠ 0) :
    forVault units depth add =
      ⟨units + Amount.share add depth units, Amount.share add depth units⟩ := by
  have hopen : (units.isZero || depth.isZero) = false := by
    rw [Bool.or_eq_false_iff, ← Bool.not_eq_true, ← Bool.not_eq_true, Amount.isZero_iff,
      Amount.isZero_iff]
    exact ⟨hunits, hdepth⟩
  rw [forVault, hopen, if_neg Bool.false_ne_true]
  split
  · rename_i hnone
    have hshare : Amount.share add depth units = 0 := by simp [Amount.share, hnone]
    have hsum : units + 0 = units :=
      Amount.ext (Amount.toNat_add_of_lt (show units.toNat + 0 < _ from units.toNat_lt))
    rw [hshare, hsum]
  · rfl

/-- The units are issued for at most their share of the depth. -/
theorem forVault_mul_le (add : Amount) (hunits : units.toNat ≠ 0) (hdepth : depth.toNat ≠ 0) :
    (forVault units depth add).issued.toNat * depth.toNat ≤ add.toNat * units.toNat := by
  rw [forVault_eq hunits hdepth]
  exact Amount.share_mul_le add depth units

/-- **A deposit into a vault neither profits nor dilutes.**  The units are added exactly, redeeming
all that were issued pays at most the deposit, no holder can redeem less than before, and whatever
any holder redeems, of this vault or of any other, leaves the depth behind each unit at least what
it was. -/
theorem forVault_fair (units depth add : Amount) (hunits : units.toNat ≠ 0)
    (hdepth : depth.toNat ≠ 0)
    (htotal : units.toNat + (forVault units depth add).issued.toNat < Amount.bound)
    (hsum : depth.toNat + add.toNat < Amount.bound) :
    (forVault units depth add).total.toNat =
        units.toNat + (forVault units depth add).issued.toNat ∧
    (Redemption.fromVault (forVault units depth add).total (depth + add)
        (forVault units depth add).issued fullBasisPoints).asset ≤ add ∧
    (∀ (holder : Amount) (bps : Nat), holder ≤ units →
      (Redemption.claim (min bps fullBasisPoints) holder).toNat * (depth.toNat + add.toNat) <
        Amount.bound →
      (Redemption.fromVault units depth holder bps).asset ≤
        (Redemption.fromVault (forVault units depth add).total (depth + add) holder bps).asset) ∧
    (∀ (vaultUnits vaultDepth holder : Amount) (bps : Nat),
      vaultDepth.toNat * (vaultUnits.toNat - (holder.toNat -
          (Redemption.fromVault vaultUnits vaultDepth holder bps).unitsAfter.toNat)) ≤
        (vaultDepth.toNat -
          (Redemption.fromVault vaultUnits vaultDepth holder bps).asset.toNat) *
            vaultUnits.toNat) := by
  have hissued := forVault_mul_le add hunits hdepth
  have hexact : (forVault units depth add).total.toNat =
      units.toNat + (forVault units depth add).issued.toNat := by
    rw [forVault_eq hunits hdepth] at htotal ⊢
    exact Amount.toNat_add_of_lt htotal
  have hdeep : (depth + add).toNat = depth.toNat + add.toNat := Amount.toNat_add_of_lt hsum
  refine ⟨hexact, ?_, ?_, Redemption.fromVault_rest⟩
  · refine vault_round_trip (Nat.pos_of_ne_zero hunits) hissued ?_
    rw [← hexact, ← hdeep]
    exact (Redemption.fromVault_mul_le _ _ _ _).trans
      (Nat.mul_le_mul_right _ (Nat.sub_le _ _))
  · intro holder bps hheld hfit
    refine Redemption.fromVault_le_of_unit_value hunits ?_ ?_ hheld (hdeep.symm ▸ hfit)
    · rw [hexact]
      exact Nat.le_add_right _ _
    · rw [hexact, hdeep]
      exact vault_unit_value hissued

/-- A vault of 1000 units over 1500: a deposit of 100 is issued 66 units, which are paid 99.  Half
of another's 300 units is paid 225 before and after. -/
theorem forVault_fair_rounded :
    forVault 1000 1500 100 = ⟨1066, 66⟩ ∧
    Redemption.fromVault 1066 1600 66 fullBasisPoints = ⟨0, 99, 0⟩ ∧
    (Redemption.fromVault 1066 1600 66 fullBasisPoints).asset ≤ 100 ∧
    (Redemption.fromVault 1000 1500 300 5000).asset ≤
      (Redemption.fromVault 1066 1600 300 5000).asset ∧
    1600 * (1066 - 150) ≤ (1600 - 225) * 1066 := by
  obtain ⟨-, hback, hothers, hrest⟩ :=
    forVault_fair 1000 1500 100 (by decide) (by decide) (by decide) (by decide)
  exact ⟨by decide, by decide, hback, hothers 300 5000 (by decide) (by decide),
    hrest 1066 1600 300 5000⟩

end Issue

end PoolExchange
