import PoolExchange.Ledger.Liquidity
import PoolExchange.Proofs.Procedure

/-!
# Ledger — the operations write by write

Spelled out as procedures, a deposit, a withdrawal and a change of status load their records,
compute, and only then write: **what they leave behind is the ledger that the operation returns, or
the ledger as it was** (`run_depositing`, `run_withdrawing`, `run_settingStatus`).
-/

namespace PoolExchange

namespace Ledger

open Procedure

def write (f : Store → Store) : Procedure Ledger Unit := modify fun l => l.withStore (f l.store)

def report (event : Event) : Procedure Ledger Unit := modify fun l => l.emit event

/-- A deposit, write by write. -/
def depositing (asset : Asset) (owner : Address) (d : Deposit) :
    Procedure Ledger Deposit.Outcome := do
  if asset.isNative || asset ≠ asset.layer1 then throw (.notDepositable asset)
  let s := (← get).store
  let pool := poolFor s asset
  let provider := providerFor s pool.asset owner
  let o ← lift (liftPool (d.apply pool provider (s.supply pool.asset)))
  write (·.setPool o.pool)
  write (·.setProvider o.provider)
  report (depositEvent owner d o)
  return o

/-- A withdrawal, write by write. -/
def withdrawing (asset : Asset) (owner : Address) (w : Withdrawal) (config : Config) :
    Procedure Ledger Withdrawal.Outcome := do
  let s := (← get).store
  let pool ← lift (findPool s asset)
  let provider ← lift (findProvider s pool.asset owner)
  let o ← lift (liftPool (w.apply pool provider (s.supply pool.asset) config))
  write (·.setPool o.pool)
  write (·.setProvider o.provider)
  unless pool.status = o.pool.status do
    report (.poolStatusChange pool.asset pool.status o.pool.status)
  report (.withdraw o.pool.asset owner w.basisPoints o.unitsRedeemed o.native o.asset)
  return o

/-- A change of status, write by write. -/
def settingStatus (asset : Asset) (status : PoolStatus) : Procedure Ledger Pool := do
  let pool ← lift (findPool (← get).store asset)
  if status = .available && (pool.balanceNative.isZero || pool.balanceAsset.isZero) then
    throw (.emptySide pool.asset)
  if pool.status = status then return pool
  let next := { pool with status := status }
  write (·.setPool next)
  report (.poolStatusChange pool.asset pool.status status)
  return next

theorem emitAll_emitAll (l : Ledger) (first second : List Event) :
    (l.emitAll first).emitAll second = l.emitAll (first ++ second) := by
  rw [emitAll, emitAll, emitAll, List.append_assoc]

theorem run_depositing (l : Ledger) (asset : Asset) (owner : Address) (d : Deposit) :
    (depositing asset owner d).run l = settle l (l.deposit asset owner d) := by
  by_cases hn : (asset.isNative || decide (asset ≠ asset.layer1)) = true
  · rw [depositing, deposit, if_pos hn, if_pos hn]
    rfl
  · rw [depositing, deposit, if_neg hn, if_neg hn]
    exact lift_bind fun o => rfl

theorem run_withdrawing (l : Ledger) (asset : Asset) (owner : Address) (w : Withdrawal)
    (config : Config) :
    (withdrawing asset owner w config).run l = settle l (l.withdraw asset owner w config) := by
  refine lift_bind fun pool => lift_bind fun provider => lift_bind fun o => ?_
  by_cases hs : pool.status = o.pool.status
  · simp only [statusEvents, if_pos hs]
    rfl
  · simp only [statusEvents, if_neg hs, ← emitAll_emitAll]
    rfl

theorem run_settingStatus (l : Ledger) (asset : Asset) (status : PoolStatus) :
    (settingStatus asset status).run l = settle l (l.setStatus asset status) := by
  refine lift_bind fun pool => ?_
  by_cases hempty : (decide (status = .available) &&
      (pool.balanceNative.isZero || pool.balanceAsset.isZero)) = true
  · simp only [if_pos hempty]
    rfl
  · by_cases hs : pool.status = status
    · simp only [if_neg hempty, if_pos hs]
      rfl
    · simp only [if_neg hempty, statusEvents, if_neg hs]
      rfl

end Ledger

end PoolExchange
