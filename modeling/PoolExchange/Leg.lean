import PoolExchange.Config
import PoolExchange.Curve
import PoolExchange.Pool
import PoolExchange.PoolError

/-!
# Leg — a trade with one pool

A leg goes from native to the pool's asset or back.  It is priced by the curve at the pool's
balances; synthetic and derived trades are priced at balances scaled by the configured multiplier,
but the balances that change are the real ones.  A synthetic output is minted and a synthetic
input is burned, so neither touches the pool's asset balance.

The floor of the leg is that of the class of its side that is not native.
-/

namespace PoolExchange

/-- What a trade with one pool did. -/
@[ext]
structure Leg where
  /-- The pool after the trade. -/
  pool : Pool
  source : Asset
  target : Asset
  input : Amount
  emit : Amount
  /-- In the output asset. -/
  fee : Amount
  feeInNative : Amount
  /-- As charged, with the floor. -/
  slip : Amount
  /-- From the depth alone. -/
  nominalSlip : Amount
deriving DecidableEq, Repr

namespace Leg

def slipFloor (source target : Asset) (config : Config) : Nat :=
  config.slipFloors.forClass (if source.isNative then target else source).slipClass

/-- The trade is priced at scaled depths. -/
def isVirtual (source target : Asset) (pool : Pool) : Bool :=
  source.isSynthetic || target.isSynthetic || pool.asset.isDerived

/-- The real balances, input side first. -/
def depths (pool : Pool) (source : Asset) : Amount × Amount :=
  if source.isNative then (pool.balanceNative, pool.balanceAsset)
  else (pool.balanceAsset, pool.balanceNative)

/-- The depths at which the trade is priced. -/
def pricedDepths (pool : Pool) (source target : Asset) (config : Config) : Amount × Amount :=
  let d := depths pool source
  if isVirtual source target pool then
    (Curve.scaleDepth d.1 config.pricing.virtualMultiplier,
      Curve.scaleDepth d.2 config.pricing.virtualMultiplier)
  else d

/-- The pool with the input added and the emission taken out. -/
def settle (pool : Pool) (source target : Asset) (amount emit : Amount) : Pool :=
  if source.isNative then
    { pool with
      balanceNative := pool.balanceNative + amount
      balanceAsset :=
        if target.isSynthetic then pool.balanceAsset else pool.balanceAsset - emit }
  else
    { pool with
      balanceNative := pool.balanceNative - emit
      balanceAsset :=
        if source.isSynthetic then pool.balanceAsset else pool.balanceAsset + amount }

/-- Trades `amount` of `source` for `target`, exactly one of them native. -/
def trade (pool : Pool) (source target : Asset) (amount : Amount) (config : Config) :
    Except PoolError Leg :=
  if pool.asset.isSynthetic then .error (.syntheticPool pool.asset)
  else if !source.isSynthetic && !pool.isAvailable then .error (.poolNotAvailable pool.asset)
  else if amount.isZero then .error .invalidAmount
  else
    let depths := pricedDepths pool source target config
    if depths.1.isZero || depths.2.isZero then .error .invalidBalance
    else
      let quote := Curve.quote depths.1 amount depths.2 (.clamp (slipFloor source target config))
      if depths.2 ≤ quote.emit then .error .notEnoughBalance
      else
        let next := settle pool source target amount quote.emit
        .ok {
          pool := next
          source := source
          target := target
          input := amount
          emit := quote.emit
          fee := quote.fee
          feeInNative := if target.isNative then quote.fee else next.assetInNative quote.fee
          slip := quote.slip
          nominalSlip := Curve.slip depths.1 amount }

end Leg

end PoolExchange
