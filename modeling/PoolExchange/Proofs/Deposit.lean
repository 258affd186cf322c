import Mathlib.Tactic
import PoolExchange.Deposit
import PoolExchange.Proofs.Results

/-!
# Deposit — what a deposit that succeeds has done

A deposit that succeeds has either been held or been credited (`Deposit.apply_cases`), and one that
has been credited has put everything pending and everything it brought into the balances, for the
units that `Issue.forPool` gives (`Deposit.credit_inv`).
-/

namespace PoolExchange

@[simp] theorem Pool.withSynths_asset (p : Pool) (supply : Amount) :
    (p.withSynths supply).asset = p.asset := rfl

@[simp] theorem Pool.withSynths_lpUnits (p : Pool) (supply : Amount) :
    (p.withSynths supply).lpUnits = p.lpUnits := rfl

@[simp] theorem Pool.withSynths_balanceNative (p : Pool) (supply : Amount) :
    (p.withSynths supply).balanceNative = p.balanceNative := rfl

@[simp] theorem Pool.withSynths_balanceAsset (p : Pool) (supply : Amount) :
    (p.withSynths supply).balanceAsset = p.balanceAsset := rfl

@[simp] theorem Pool.withSynths_pendingNative (p : Pool) (supply : Amount) :
    (p.withSynths supply).pendingNative = p.pendingNative := rfl

@[simp] theorem Pool.withSynths_pendingAsset (p : Pool) (supply : Amount) :
    (p.withSynths supply).pendingAsset = p.pendingAsset := rfl

@[simp] theorem Pool.withSynths_synthUnits (p : Pool) (supply : Amount) :
    (p.withSynths supply).synthUnits = synthUnitsOf p.balanceAsset supply p.lpUnits := rfl

/-- Synthetic units are computed from what they do not change, so computing them again is
computing them once. -/
@[simp] theorem Pool.withSynths_withSynths (p : Pool) (supply supply' : Amount) :
    (p.withSynths supply).withSynths supply' = p.withSynths supply' := rfl

namespace Deposit

/-- The pool with everything pending for `provider` and everything deposited in its balances, and
`issued` more units. -/
def credited (d : Deposit) (pool : Pool) (provider : Provider) (issued : Amount) : Pool :=
  { pool with
    pendingNative := pool.pendingNative - provider.pendingNative
    pendingAsset := pool.pendingAsset - provider.pendingAsset
    lpUnits := pool.lpUnits + issued
    balanceNative := pool.balanceNative + (provider.pendingNative + d.native)
    balanceAsset := pool.balanceAsset + (provider.pendingAsset + d.asset) }

variable {d : Deposit} {pool : Pool} {provider : Provider} {supply : Amount} {o : Outcome}

/-- **Inversion of a credited deposit.** -/
theorem credit_inv (h : d.credit pool provider supply = .ok o) :
    ∃ issue, Issue.forPool pool.poolUnits pool.balanceNative pool.balanceAsset
        (provider.pendingNative + d.native) (provider.pendingAsset + d.asset) = .ok issue ∧
      o.unitsIssued = issue.issued ∧
      o.pool = (d.credited pool provider issue.issued).withSynths supply ∧
      o.pool.balanceNative.toNat ≠ 0 ∧ o.pool.balanceAsset.toNat ≠ 0 ∧
      o.provider.key = provider.key ∧ o.provider.units = provider.units + issue.issued ∧
      o.provider.pendingNative = 0 ∧ o.provider.pendingAsset = 0 := by
  simp only [credit, bind_eq_ok, guard_eq_ok, Bool.or_eq_true, Amount.isZero_iff, not_or] at h
  obtain ⟨issue, hissue, hzero, h⟩ := h
  obtain rfl := Except.ok.inj h
  exact ⟨issue, hissue, rfl, rfl, hzero.1, hzero.2, rfl, rfl, rfl, rfl⟩

/-- A deposit that succeeds is held or credited. -/
theorem apply_cases (h : d.apply pool provider supply = .ok o) :
    (d.stage = true ∧ d.isHalf provider = true ∧ o = d.hold (pool.withSynths supply) provider) ∨
      d.credit (pool.withSynths supply) provider supply = .ok o := by
  simp only [apply] at h
  split at h
  · rename_i hstage
    rw [Bool.and_eq_true] at hstage
    exact .inl ⟨hstage.1, hstage.2, (Except.ok.inj h).symm⟩
  · exact .inr h

/-- A deposit stays in its pool and with its provider. -/
theorem apply_keys (h : d.apply pool provider supply = .ok o) :
    o.pool.asset = pool.asset ∧ o.provider.key = provider.key := by
  rcases apply_cases h with ⟨-, -, rfl⟩ | h
  · exact ⟨rfl, rfl⟩
  · obtain ⟨issue, -, -, hpool, -, -, hkey, -⟩ := credit_inv h
    exact ⟨by rw [hpool]; rfl, hkey⟩

end Deposit

end PoolExchange
