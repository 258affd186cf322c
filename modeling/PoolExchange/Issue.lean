import PoolExchange.Amount.Share
import PoolExchange.Fixed
import PoolExchange.PoolError

/-!
# Issue — what a deposit is worth

A deposit of `r` native and `a` asset into a pool of `P` units, `R` native and `A` asset is worth

  `P * (r * A + a * R + 2 * r * a) / (r * A + a * R + 2 * R * A)`

units, rounded down: its share of the pool afterwards is its share of the combined value, where an
uneven deposit pays for the swap that evens it out.  The first deposit sets the scale: one unit
for each native unit.  A vault has one side only, and a deposit is worth its share of the depth.

Nothing here saturates silently in the general case: a product that does not fit is an error.
-/

namespace PoolExchange

/-- The units after a deposit, and the units it brought. -/
@[ext]
structure Issue where
  total : Amount
  issued : Amount
deriving DecidableEq, Repr

namespace Issue

/-- The units for the first deposit, or for one into a pool with an empty side. -/
def firstUnits (native asset addNative addAsset : Amount) : Amount :=
  if !addNative.isZero then addNative
  else if !asset.isZero then Amount.share addAsset asset native
  else addAsset

/-- The value of the deposit's two sides against the pool's, `r * A + a * R`. -/
def cross (native asset addNative addAsset : Amount) : Except AmountError Amount := do
  let left ← addNative.mul? asset
  let right ← addAsset.mul? native
  left.add? right

/-- `2 * x * y`. -/
def twice (x y : Amount) : Except AmountError Amount := do
  (← Amount.mul? 2 x).mul? y

/-- The two sides of the general formula. -/
def fraction (units native asset addNative addAsset : Amount) :
    Except AmountError (Amount × Amount) := do
  let value ← cross native asset addNative addAsset
  let numerator ← units.mul? (← value.add? (← twice addNative addAsset))
  let denominator ← value.add? (← twice asset native)
  return (numerator, denominator)

/-- The units for a deposit into a pool. -/
def forPool (units native asset addNative addAsset : Amount) : Except PoolError Issue :=
  if (native + addNative).isZero then .error .zeroTotalNative
  else if (asset + addAsset).isZero then .error .zeroTotalAsset
  else if native.isZero || asset.isZero || units.isZero then
    let issued := firstUnits native asset addNative addAsset
    .ok ⟨units + issued, issued⟩
  else do
    let f ← PoolError.ofAmount (fraction units native asset addNative addAsset)
    if f.2.isZero then .error .zeroUnitDenominator
    else
      let ratio ← PoolError.ofAmount (Fixed.ratio? f.1 f.2)
      .ok ⟨units + ratio.truncate, ratio.truncate⟩

/-- The units for a deposit into a vault. -/
def forVault (units depth add : Amount) : Issue :=
  if units.isZero || depth.isZero then ⟨add, add⟩
  else if add.isZero then ⟨units, 0⟩
  else
    let issued := Amount.share add depth units
    ⟨units + issued, issued⟩

end Issue

end PoolExchange
