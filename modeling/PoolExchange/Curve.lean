import PoolExchange.Amount.Share
import PoolExchange.Scale

/-!
# Curve — constant-product pricing

An input `x` into a pool with `X` on the input side and `Y` on the output side pays, up to
rounding down,

* the emission `x * X * Y / (x + X)²`,
* the fee `x² * Y / (x + X)²`, which stays in the pool,
* at a slip of `x * 10000 / (x + X)` basis points.

Emission and fee add up to what a swap without a fee would pay, `x * Y / (x + X)`.  When a floor
is above the slip, the fee is the floor's share of that instead, and the floor is the slip.
-/

namespace PoolExchange

/-- The price of one trade with one pool. -/
@[ext]
structure Quote where
  emit : Amount
  fee : Amount
  slip : Amount
deriving DecidableEq, Repr

namespace Curve

/-- One hundred percent as an amount. -/
def full : Amount := .clamp fullBasisPoints

def emission (inDepth x outDepth : Amount) : Amount :=
  x * inDepth * outDepth / ((x + inDepth) * (x + inDepth))

/-- The fee of a trade, in the output asset. -/
def fee (inDepth x outDepth : Amount) : Amount :=
  x * x * outDepth / ((x + inDepth) * (x + inDepth))

def slip (inDepth x : Amount) : Amount :=
  x * full / (x + inDepth)

/-- The fee when the floor applies. -/
def floorFee (inDepth x outDepth floor : Amount) : Amount :=
  Amount.cappedShare floor full (x * outDepth) / (x + inDepth)

/-- The emission without a fee. -/
def fullEmission (inDepth x outDepth : Amount) : Amount :=
  x * outDepth / (x + inDepth)

/-- The price of `x`, with the fee at `floor` or above. -/
def quote (inDepth x outDepth floor : Amount) : Quote :=
  let nominal := slip inDepth x
  if nominal < floor then
    let charged := floorFee inDepth x outDepth floor
    ⟨fullEmission inDepth x outDepth - charged, charged, floor⟩
  else ⟨emission inDepth x outDepth, fee inDepth x outDepth, nominal⟩

/-- A depth scaled by a multiplier in basis points. -/
def scaleDepth (depth : Amount) (multiplier : Nat) : Amount :=
  Amount.share (.clamp multiplier) full depth

end Curve

end PoolExchange
