import PoolExchange.Ledger

/-!
# Ledger — payments

Every coin that leaves the exchange pays the outbound fee.  A native coin pays it as it is; any
other coin pays its worth at the ratio of its pool.  The fee of a layer-1 coin goes into the
pool's asset side and its worth comes out of the native side, the fee of a synthetic coin is
burned, and that of any other coin is only kept.  A coin without a usable pool, or too small for
the fee, is dropped, and the drop is reported.
-/

namespace PoolExchange

/-- What is paid out, and the fee kept, both in the coin's asset. -/
@[ext]
structure Payout where
  coin : Coin
  fee : Amount
deriving DecidableEq, Repr

/-- Why a payment is dropped. -/
inductive DropReason
  | noPool (asset : Asset)
  | emptySide (pool : Asset)
  | belowFee (coin : Coin)
deriving DecidableEq, Repr

def DropReason.message : DropReason → String
  | .noPool asset => "no pool for " ++ asset.text
  | .emptySide pool => "pool " ++ pool.text ++ " has an empty side"
  | .belowFee coin => coin.text ++ " does not cover the outbound fee"

namespace Payout

/-- The coin less the fee, if anything is left. -/
def netOf (coin : Coin) (fee : Amount) : Except DropReason Payout :=
  let net := coin.amount - fee
  if net.isZero then .error (.belowFee coin) else .ok ⟨⟨coin.asset, net⟩, fee⟩

/-- The pool that can price a coin's fee. -/
def pricingPool (s : Store) (asset : Asset) : Except DropReason Pool :=
  match s.pool? asset with
  | none => .error (.noPool asset)
  | some pool =>
    if pool.balanceNative.isZero || pool.balanceAsset.isZero then .error (.emptySide pool.asset)
    else .ok pool

/-- The store after keeping a fee in the coin's asset. -/
def keepFee (s : Store) (pool : Pool) (asset : Asset) (fee : Amount) : Store :=
  match asset.slipClass with
  | .layer1 =>
    s.setPool { pool with
      balanceAsset := pool.balanceAsset + fee
      balanceNative := pool.balanceNative - pool.assetInNative fee }
  | .synthetic => s.setSupply asset (s.supply asset - fee)
  | .trade | .secured | .derived => s

/-- Charges the outbound fee. -/
def charge (s : Store) (coin : Coin) (config : Config) : Except DropReason (Store × Payout) :=
  let flat := Amount.clamp config.pricing.outboundFee
  if coin.asset.isNative then do
    return (s, ← netOf coin (min flat coin.amount))
  else do
    let pool ← pricingPool s coin.asset
    let fee := min (pool.nativeInAsset flat) coin.amount
    let payout ← netOf coin fee
    return (keepFee s pool coin.asset fee, payout)

end Payout

namespace Ledger

/-- Gives a coin back to its sender. -/
def refund (l : Ledger) (tx : TxId) (coin : Coin) (reason : String) (config : Config) :
    Ledger × Option Payout :=
  match Payout.charge l.store coin config with
  | .ok (s, p) => ((l.withStore s).emit (.refund tx p.coin p.fee reason), some p)
  | .error e => (l.emit (.refundDropped tx coin (reason ++ ": " ++ e.message)), none)

/-- Pays a coin out. -/
def outbound (l : Ledger) (tx : TxId) (recipient : Address) (coin : Coin) (config : Config) :
    Ledger × Option Payout :=
  match Payout.charge l.store coin config with
  | .ok (s, p) => ((l.withStore s).emit (.outbound tx recipient p.coin), some p)
  | .error e => (l.emit (.refundDropped tx coin e.message), none)

end Ledger

end PoolExchange
