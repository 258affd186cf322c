import PoolExchange.Issue
import PoolExchange.Pool
import PoolExchange.Provider

/-!
# Deposit — adding liquidity

A deposit may come in two halves.  While one side is still missing a *staged* deposit is held as
pending, by the pool and by the provider alike, and issues nothing; the deposit that completes it
adds everything pending to the balances and issues units for the whole.
-/

namespace PoolExchange

@[ext]
structure Deposit where
  native : Amount
  asset : Amount
  tx : TxId
  /-- Hold a one-sided deposit until the other side comes. -/
  stage : Bool
  height : Nat
deriving DecidableEq, Repr

namespace Deposit

@[ext]
structure Outcome where
  pool : Pool
  provider : Provider
  unitsIssued : Amount
  /-- What entered the balances, with what had been pending. -/
  nativeAdded : Amount
  assetAdded : Amount
  staged : Bool
  /-- The pool had no units before. -/
  firstDeposit : Bool
deriving DecidableEq, Repr

/-- Holds the deposit as pending. -/
def hold (d : Deposit) (pool : Pool) (provider : Provider) : Outcome where
  pool := { pool with
    pendingNative := pool.pendingNative + d.native
    pendingAsset := pool.pendingAsset + d.asset }
  provider := { provider with
    pendingNative := provider.pendingNative + d.native
    pendingAsset := provider.pendingAsset + d.asset
    pendingTx := some d.tx
    lastAddHeight := d.height }
  unitsIssued := 0
  nativeAdded := 0
  assetAdded := 0
  staged := true
  firstDeposit := false

/-- Adds the deposit and everything pending to the balances. -/
def credit (d : Deposit) (pool : Pool) (provider : Provider) (supply : Amount) :
    Except PoolError Outcome := do
  let addedNative := provider.pendingNative + d.native
  let addedAsset := provider.pendingAsset + d.asset
  let issue ← Issue.forPool pool.poolUnits pool.balanceNative pool.balanceAsset
    addedNative addedAsset
  let next := { pool with
    pendingNative := pool.pendingNative - provider.pendingNative
    pendingAsset := pool.pendingAsset - provider.pendingAsset
    lpUnits := pool.lpUnits + issue.issued
    balanceNative := pool.balanceNative + addedNative
    balanceAsset := pool.balanceAsset + addedAsset }
  if next.balanceNative.isZero || next.balanceAsset.isZero then .error .invalidBalance
  else
    let next := next.withSynths supply
    let nativeValue := Amount.cappedShare issue.issued next.poolUnits next.balanceNative
    let assetValue := Amount.cappedShare issue.issued next.poolUnits next.balanceAsset
    .ok {
      pool := next
      provider := { provider.clearPending with
        units := provider.units + issue.issued
        nativeDepositValue := provider.nativeDepositValue + nativeValue
        assetDepositValue := provider.assetDepositValue + assetValue
        lastAddHeight := d.height }
      unitsIssued := issue.issued
      nativeAdded := addedNative
      assetAdded := addedAsset
      staged := false
      firstDeposit := pool.poolUnits.isZero }

/-- One side would still be missing. -/
def isHalf (d : Deposit) (provider : Provider) : Bool :=
  (provider.pendingAsset + d.asset).isZero || (provider.pendingNative + d.native).isZero

/-- Makes the deposit. -/
def apply (d : Deposit) (pool : Pool) (provider : Provider) (supply : Amount) :
    Except PoolError Outcome :=
  let pool := pool.withSynths supply
  if d.stage && d.isHalf provider then .ok (d.hold pool provider)
  else d.credit pool provider supply

end Deposit

end PoolExchange
