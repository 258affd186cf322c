import PoolExchange.Ledger.Liquidity
import PoolExchange.Proofs.Store
import PoolExchange.Proofs.Withdrawal

/-!
# Ledger — what a ledger operation that succeeds has done

A deposit and a withdrawal store the pool and the position that their arithmetic returns
(`deposit_inv`, `withdraw_inv`); a change of status stores the pool with the new status, or nothing
(`setStatus_inv`).
-/

namespace PoolExchange.Ledger

theorem liftPool_eq_ok {α : Type} {x : Except PoolError α} {a : α} :
    liftPool x = .ok a ↔ x = .ok a := by
  cases x <;> simp [liftPool]

theorem findPool_eq_ok {s : Store} {asset : Asset} {pool : Pool} :
    findPool s asset = .ok pool ↔ s.pool? asset = some pool := by
  rw [findPool]
  cases s.pool? asset <;> simp

theorem findProvider_eq_ok {s : Store} {asset : Asset} {owner : Address} {provider : Provider} :
    findProvider s asset owner = .ok provider ↔ s.provider? asset owner = some provider := by
  rw [findProvider]
  cases s.provider? asset owner <;> simp

/-- The pool of an asset has its layer-1 form, stored or not. -/
theorem asset_poolFor {s : Store} (hs : s.Keyed) (asset : Asset) :
    (poolFor s asset).asset = asset.layer1 := by
  rw [poolFor]
  cases hp : s.pool? asset with
  | none => rfl
  | some p => exact hs.asset_of_pool? hp

theorem key_providerFor {s : Store} (hs : s.Keyed) (pool : Asset) (owner : Address) :
    (providerFor s pool owner).key = ⟨pool.layer1, owner⟩ := by
  rw [providerFor]
  cases hv : s.provider? pool owner with
  | none => rfl
  | some v => exact hs.provider _ v hv

variable {l l' : Ledger} {asset : Asset} {owner : Address}

/-- **Inversion of a deposit.** -/
theorem deposit_inv {d : Deposit} {o : Deposit.Outcome}
    (h : l.deposit asset owner d = .ok (l', o)) :
    asset.isNative = false ∧ asset.layer1 = asset ∧
      d.apply (poolFor l.store asset) (providerFor l.store (poolFor l.store asset).asset owner)
        (l.store.supply (poolFor l.store asset).asset) = .ok o ∧
      l'.store = (l.store.setPool o.pool).setProvider o.provider := by
  simp only [deposit, guard_eq_ok, bind_eq_ok, liftPool_eq_ok, pure_eq_ok, Prod.mk.injEq,
    Bool.or_eq_true, decide_eq_true_eq, not_or, Bool.not_eq_true, ne_eq, not_not] at h
  obtain ⟨⟨hn, hl⟩, o', ho, rfl, rfl⟩ := h
  exact ⟨hn, hl.symm, ho, rfl⟩

/-- **Inversion of a withdrawal.** -/
theorem withdraw_inv {w : Withdrawal} {config : Config} {o : Withdrawal.Outcome}
    (h : l.withdraw asset owner w config = .ok (l', o)) :
    ∃ pool provider, l.store.pool? asset = some pool ∧
      l.store.provider? pool.asset owner = some provider ∧
      w.apply pool provider (l.store.supply pool.asset) config = .ok o ∧
      l'.store = (l.store.setPool o.pool).setProvider o.provider := by
  simp only [withdraw, bind_eq_ok, findPool_eq_ok, findProvider_eq_ok, liftPool_eq_ok, pure_eq_ok,
    Prod.mk.injEq] at h
  obtain ⟨pool, hpool, provider, hprovider, o', ho, rfl, rfl⟩ := h
  exact ⟨pool, provider, hpool, hprovider, ho, rfl⟩

/-- A deposit in terms of the records of its asset, stored or new. -/
theorem deposit_records (hs : l.store.Keyed) {d : Deposit} {o : Deposit.Outcome}
    (h : l.deposit asset owner d = .ok (l', o)) :
    asset.layer1 = asset ∧
      d.apply (poolFor l.store asset) (providerFor l.store asset owner)
        (l.store.supply asset) = .ok o ∧
      o.pool.asset = asset ∧ o.provider.key = ⟨asset, owner⟩ ∧
      l'.store = (l.store.setPool o.pool).setProvider o.provider := by
  obtain ⟨-, ha, happly, hstore⟩ := deposit_inv h
  obtain ⟨hpool, hkey⟩ := Deposit.apply_keys happly
  rw [asset_poolFor hs, ha] at happly hpool hkey
  rw [key_providerFor hs, ha] at hkey
  exact ⟨ha, happly, hpool, hkey, hstore⟩

/-- So for a withdrawal, whose records are stored. -/
theorem withdraw_records (hs : l.store.Keyed) {w : Withdrawal} {config : Config}
    {o : Withdrawal.Outcome} (h : l.withdraw asset owner w config = .ok (l', o)) :
    w.apply (poolFor l.store asset.layer1) (providerFor l.store asset.layer1 owner)
        (l.store.supply asset.layer1) config = .ok o ∧
      o.pool.asset = asset.layer1 ∧ o.provider.key = ⟨asset.layer1, owner⟩ ∧
      l'.store = (l.store.setPool o.pool).setProvider o.provider := by
  obtain ⟨pool, provider, hp, hv, happly, hstore⟩ := withdraw_inv h
  obtain ⟨hpool, hkey⟩ := Withdrawal.apply_keys happly
  have hasset := hs.asset_of_pool? hp
  have hpoolFor : poolFor l.store asset.layer1 = pool := by
    rw [poolFor, show l.store.pool? asset.layer1 = some pool from hp, Option.getD_some]
  rw [hasset] at happly hpool hv
  have hproviderFor : providerFor l.store asset.layer1 owner = provider := by
    rw [providerFor, hv, Option.getD_some]
  rw [← hproviderFor, key_providerFor hs] at hkey
  rw [hpoolFor, hproviderFor]
  exact ⟨happly, hpool, hkey, hstore⟩

/-- **Inversion of a change of status.** -/
theorem setStatus_inv {status : PoolStatus} {p : Pool}
    (h : l.setStatus asset status = .ok (l', p)) :
    ∃ pool, l.store.pool? asset = some pool ∧
      (l'.store = l.store ∨ l'.store = l.store.setPool { pool with status := status }) := by
  simp only [setStatus, bind_eq_ok, findPool_eq_ok, guard_eq_ok] at h
  obtain ⟨pool, hpool, -, h⟩ := h
  refine ⟨pool, hpool, ?_⟩
  split at h
  · exact .inl (by rw [← (Prod.mk.inj (pure_eq_ok.mp h)).1])
  · exact .inr (by rw [← (Prod.mk.inj (pure_eq_ok.mp h)).1]; rfl)

end PoolExchange.Ledger
