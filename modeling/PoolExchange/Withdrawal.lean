import PoolExchange.Config
import PoolExchange.Curve
import PoolExchange.Pool
import PoolExchange.PoolError
import PoolExchange.Provider

/-!
# Withdrawal — redeeming units

A withdrawal of some basis points of a provider's units pays the same share of both sides of the
pool.  Asked for on one side only, the other side's share is swapped through what remains of the
pool.  A provider without units gets everything pending back.

A withdrawal that would empty one side of the pool and not the other fails, and one that empties
both moves the pool to staged.
-/

namespace PoolExchange

/-- The side on which a withdrawal is paid. -/
inductive WithdrawSide
  | both | nativeOnly | assetOnly
deriving DecidableEq, Repr

def WithdrawSide.name : WithdrawSide → String
  | .both => "both"
  | .nativeOnly => "native_only"
  | .assetOnly => "asset_only"

/-- What a redemption pays, and the units that remain. -/
@[ext]
structure Redemption where
  native : Amount
  asset : Amount
  unitsAfter : Amount
deriving DecidableEq, Repr

namespace Redemption

def checkBasisPoints (bps : Nat) : Except PoolError Unit :=
  if bps = 0 || fullBasisPoints < bps then .error (.invalidWithdrawBasisPoints bps) else .ok ()

/-- The units that the basis points stand for. -/
def claim (bps : Nat) (units : Amount) : Amount :=
  Amount.cappedShare (.clamp bps) Curve.full units

/-- Pays out a share of both sides, on the side asked for. -/
def pay (native asset restNative restAsset unitsAfter floor : Amount) : WithdrawSide → Redemption
  | .both => ⟨native, asset, unitsAfter⟩
  | .nativeOnly => ⟨native + (Curve.quote restAsset asset restNative floor).emit, 0, unitsAfter⟩
  | .assetOnly => ⟨0, asset + (Curve.quote restNative native restAsset floor).emit, unitsAfter⟩

/-- Redeems some basis points of `lpUnits` from a pool. -/
def fromPool (pool : Asset) (poolUnits poolNative poolAsset lpUnits : Amount) (bps : Nat)
    (side : WithdrawSide) (config : Config) : Except PoolError Redemption :=
  if poolUnits.isZero then .error (.zeroPoolUnits pool)
  else if poolNative.isZero then .error (.zeroPoolBalance pool .native)
  else if poolAsset.isZero then .error (.zeroPoolBalance pool .asset)
  else if lpUnits.isZero then .error .noUnitsLeft
  else do
    checkBasisPoints bps
    let claimed := claim bps lpUnits
    let native := Amount.cappedShare claimed poolUnits poolNative
    let asset := Amount.cappedShare claimed poolUnits poolAsset
    let floor := Amount.clamp (config.slipFloors.forClass pool.slipClass)
    return pay native asset (poolNative - native) (poolAsset - asset) (lpUnits - claimed) floor side

/-- Redeems some basis points of a vault position; one that is worth nothing redeems nothing and
keeps no units. -/
def fromVault (units depth lpUnits : Amount) (bps : Nat) : Redemption :=
  if units.isZero || lpUnits.isZero || depth.isZero || bps = 0 then ⟨0, 0, 0⟩
  else
    let claimed := claim (min bps fullBasisPoints) lpUnits
    ⟨0, Amount.cappedShare claimed units depth, lpUnits - claimed⟩

end Redemption

/-- A request to redeem units. -/
@[ext]
structure Withdrawal where
  basisPoints : Nat
  side : WithdrawSide
  height : Nat
deriving DecidableEq, Repr

namespace Withdrawal

@[ext]
structure Outcome where
  pool : Pool
  provider : Provider
  native : Amount
  asset : Amount
  unitsRedeemed : Amount
  /-- The withdrawal emptied the pool. -/
  poolStaged : Bool
deriving DecidableEq, Repr

/-- Returns everything pending. -/
def release (w : Withdrawal) (pool : Pool) (provider : Provider) : Except PoolError Outcome :=
  if !provider.hasPending then .error .noUnitsLeft
  else .ok {
    pool := { pool with
      pendingNative := pool.pendingNative - provider.pendingNative
      pendingAsset := pool.pendingAsset - provider.pendingAsset }
    provider := { provider.clearPending with lastWithdrawHeight := w.height }
    native := provider.pendingNative
    asset := provider.pendingAsset
    unitsRedeemed := 0
    poolStaged := false }

/-- The provider with deposit values, taken from the pool where they were never recorded. -/
def valued (pool : Pool) (provider : Provider) : Provider :=
  if pool.isAvailable && provider.nativeDepositValue.isZero && provider.assetDepositValue.isZero
  then { provider with
    nativeDepositValue := Amount.cappedShare provider.units pool.poolUnits pool.balanceNative
    assetDepositValue := Amount.cappedShare provider.units pool.poolUnits pool.balanceAsset }
  else provider

/-- The pool after paying out a redemption. -/
def settle (pool : Pool) (redeemed native asset supply : Amount) : Pool :=
  let next := { pool with
    lpUnits := pool.lpUnits - redeemed
    balanceNative := pool.balanceNative - native
    balanceAsset := pool.balanceAsset - asset }
  let next :=
    if next.balanceNative.isZero || next.balanceAsset.isZero then { next with status := .staged }
    else next
  next.withSynths supply

/-- Redeems units. -/
def redeem (w : Withdrawal) (pool : Pool) (provider : Provider) (supply : Amount)
    (config : Config) : Except PoolError Outcome := do
  let provider := valued pool provider
  let r ← Redemption.fromPool pool.asset pool.poolUnits pool.balanceNative pool.balanceAsset
    provider.units w.basisPoints w.side config
  if (r.native = pool.balanceNative) ≠ (r.asset = pool.balanceAsset) then
    .error .oneSidedFullWithdraw
  else if provider.units ≤ r.unitsAfter then .error (.unitsIncreased provider.units r.unitsAfter)
  else
    let redeemed := provider.units - r.unitsAfter
    let next := settle pool redeemed r.native r.asset supply
    let keep (value : Amount) : Amount := value - Redemption.claim w.basisPoints value
    .ok {
      pool := next
      provider := { provider with
        units := r.unitsAfter
        nativeDepositValue := keep provider.nativeDepositValue
        assetDepositValue := keep provider.assetDepositValue
        lastWithdrawHeight := w.height }
      native := r.native
      asset := r.asset
      unitsRedeemed := redeemed
      poolStaged := next.balanceNative.isZero || next.balanceAsset.isZero }

/-- Makes the withdrawal. -/
def apply (w : Withdrawal) (pool : Pool) (provider : Provider) (supply : Amount)
    (config : Config) : Except PoolError Outcome := do
  Redemption.checkBasisPoints w.basisPoints
  let pool := pool.withSynths supply
  if provider.units.isZero then w.release pool provider
  else w.redeem pool provider supply config

end Withdrawal

end PoolExchange
