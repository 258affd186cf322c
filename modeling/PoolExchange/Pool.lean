import PoolExchange.Amount.Root
import PoolExchange.Amount.Share
import PoolExchange.Decimal
import PoolExchange.Identity

/-!
# Pool — one asset against the native asset

A pool holds two balances and knows who owns them: `lpUnits` are the units of its liquidity
providers, `synthUnits` the units that the outstanding synthetic supply stands for, and
`poolUnits` their sum.  `synthUnits` is a cached value: `withSynths` computes it anew from the
supply, and reads of `poolUnits` come after it.

A pool is *sound* (`validate`) when it has no units, or has something on the asset side and
something on the native side; only the native side may be empty while synthetic units remain.
-/

namespace PoolExchange

inductive PoolStatus
  /-- Open for swaps and deposits. -/
  | available
  /-- Open for deposits only. -/
  | staged
  /-- Closed. -/
  | suspended
deriving DecidableEq, Repr

def PoolStatus.name : PoolStatus → String
  | .available => "Available"
  | .staged => "Staged"
  | .suspended => "Suspended"

@[ext]
structure Pool where
  asset : Asset
  balanceNative : Amount
  balanceAsset : Amount
  lpUnits : Amount
  synthUnits : Amount
  /-- Staged deposits that have not entered the balances. -/
  pendingNative : Amount
  pendingAsset : Amount
  status : PoolStatus
  /-- The number of decimals of the asset on its own chain. -/
  decimals : Nat
deriving DecidableEq, Repr

/-- The units that a synthetic supply stands for: `lpUnits * supply / (2 * depth - supply)`. -/
def synthUnitsOf (depth supply lpUnits : Amount) : Amount :=
  if supply.isZero then 0
  else
    let denominator := depth * 2 - supply
    if denominator.isZero then 0 else lpUnits * supply / denominator

namespace Pool

/-- The pool of `asset` before its first deposit. -/
def empty (asset : Asset) : Pool where
  asset := asset.layer1
  balanceNative := 0
  balanceAsset := 0
  lpUnits := 0
  synthUnits := 0
  pendingNative := 0
  pendingAsset := 0
  status := .staged
  decimals := 8

def poolUnits (p : Pool) : Amount := p.lpUnits + p.synthUnits

def isAvailable (p : Pool) : Bool := p.status == .available

/-- Both sides are drained. -/
def isEmpty (p : Pool) : Bool := p.balanceNative.isZero && p.balanceAsset.isZero

/-- The pool with the synthetic units of the given supply. -/
def withSynths (p : Pool) (supply : Amount) : Pool :=
  { p with synthUnits := synthUnitsOf p.balanceAsset supply p.lpUnits }

/-- The native value of an amount of the asset, at the ratio of the balances. -/
def assetInNative (p : Pool) (amount : Amount) : Amount :=
  Amount.share p.balanceNative p.balanceAsset amount

/-- The asset value of an amount of native, at the ratio of the balances. -/
def nativeInAsset (p : Pool) (amount : Amount) : Amount :=
  Amount.share p.balanceAsset p.balanceNative amount

/-- The liquidity unit value index: the root of the product of the balances, per unit. -/
def unitValue? (p : Pool) : Option Decimal :=
  if p.poolUnits.isZero then none
  else
    match Fixed.ratio? (p.balanceNative * p.balanceAsset).root p.poolUnits with
    | .ok value => value.toDecimal?
    | .error _ => none

def validate (p : Pool) : Except InputError Unit :=
  if p.poolUnits.isZero then .ok ()
  else if p.balanceAsset.isZero then
    .error (.custom ("pool " ++ p.asset.text ++ " has units but zero asset balance"))
  else if p.balanceNative.isZero && p.synthUnits.isZero then
    .error (.custom ("pool " ++ p.asset.text ++ " has units but zero native balance"))
  else .ok ()

def text (p : Pool) : String :=
  p.asset.text ++ " [" ++ p.status.name ++ "] native=" ++ p.balanceNative.text ++
    " asset=" ++ p.balanceAsset.text ++ " lp_units=" ++ p.lpUnits.text ++
    " synth_units=" ++ p.synthUnits.text

instance : ToString Pool := ⟨text⟩

end Pool

end PoolExchange
