import PoolExchange.Deposit
import PoolExchange.Ledger
import PoolExchange.Withdrawal

/-!
# Ledger — deposits, withdrawals and the status of pools

Each operation loads the records it concerns, stores what the pool arithmetic returns and reports
what happened.  One that fails returns no ledger, so it changes nothing.

Deposits go to layer-1 assets other than native, and create the pool and the position when they
are missing.  A pool becomes available only when both its sides hold something.
-/

namespace PoolExchange.Ledger

def liftPool {α : Type} : Except PoolError α → Except StoreError α
  | .ok a => .ok a
  | .error e => .error (.pool e)

/-- The stored pool, or an empty one. -/
def poolFor (s : Store) (asset : Asset) : Pool := (s.pool? asset).getD (.empty asset)

/-- The stored position, or a new one. -/
def providerFor (s : Store) (pool : Asset) (owner : Address) : Provider :=
  (s.provider? pool owner).getD (.new pool owner)

def depositEvent (owner : Address) (d : Deposit) (o : Deposit.Outcome) : Event :=
  if o.staged then .pendingLiquidity o.pool.asset owner d.tx d.native d.asset
  else .addLiquidity o.pool.asset owner d.tx o.unitsIssued o.nativeAdded o.assetAdded

/-- Adds liquidity to the pool of `asset`. -/
def deposit (l : Ledger) (asset : Asset) (owner : Address) (d : Deposit) :
    Except StoreError (Ledger × Deposit.Outcome) :=
  if asset.isNative || asset ≠ asset.layer1 then .error (.notDepositable asset)
  else do
    let pool := poolFor l.store asset
    let provider := providerFor l.store pool.asset owner
    let o ← liftPool (d.apply pool provider (l.store.supply pool.asset))
    let next := l.withStore ((l.store.setPool o.pool).setProvider o.provider)
    return (next.emit (depositEvent owner d o), o)

def findPool (s : Store) (asset : Asset) : Except StoreError Pool :=
  match s.pool? asset with
  | some pool => .ok pool
  | none => .error (.notFound "pool" asset.text)

def findProvider (s : Store) (pool : Asset) (owner : Address) : Except StoreError Provider :=
  match s.provider? pool owner with
  | some provider => .ok provider
  | none => .error (.notFound "liquidity provider" (pool.text ++ "/" ++ owner.text))

/-- The report of a status that changed. -/
def statusEvents (pool : Asset) (before after : PoolStatus) : List Event :=
  if before = after then [] else [.poolStatusChange pool before after]

/-- Redeems units of the pool of `asset`. -/
def withdraw (l : Ledger) (asset : Asset) (owner : Address) (w : Withdrawal) (config : Config) :
    Except StoreError (Ledger × Withdrawal.Outcome) := do
  let pool ← findPool l.store asset
  let provider ← findProvider l.store pool.asset owner
  let o ← liftPool (w.apply pool provider (l.store.supply pool.asset) config)
  let next := l.withStore ((l.store.setPool o.pool).setProvider o.provider)
  let report := Event.withdraw o.pool.asset owner w.basisPoints o.unitsRedeemed o.native o.asset
  return (next.emitAll (statusEvents pool.asset pool.status o.pool.status ++ [report]), o)

/-- Moves a pool to a status. -/
def setStatus (l : Ledger) (asset : Asset) (status : PoolStatus) :
    Except StoreError (Ledger × Pool) := do
  let pool ← findPool l.store asset
  if status = .available && (pool.balanceNative.isZero || pool.balanceAsset.isZero) then
    .error (.emptySide pool.asset)
  else if pool.status = status then return (l, pool)
  else
    let next := { pool with status := status }
    return ((l.withStore (l.store.setPool next)).emitAll
      (statusEvents pool.asset pool.status status), next)

end PoolExchange.Ledger
