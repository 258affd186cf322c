import PoolExchange.Pool

/-!
# Event — what the exchange reports

Events tell what happened; nothing in the exchange depends on them.  Each has a kind, by which it
is filed.
-/

namespace PoolExchange

inductive Event
  | addLiquidity (pool : Asset) (provider : Address) (tx : TxId) (units native asset : Amount)
  | pendingLiquidity (pool : Asset) (provider : Address) (tx : TxId) (native asset : Amount)
  | withdraw (pool : Asset) (provider : Address) (basisPoints : Nat)
      (units native asset : Amount)
  | swap (pool : Asset) (tx : TxId) (input emit : Coin) (fee feeInNative slip : Amount)
  | refund (tx : TxId) (coin : Coin) (fee : Amount) (reason : String)
  /-- A payment that no pool could account for. -/
  | refundDropped (tx : TxId) (coin : Coin) (reason : String)
  | streamingSwap (tx : TxId) (source target : Asset) (interval quantity count : Nat)
      (deposit input output : Amount) (failedSwaps : List Nat)
  | outbound (tx : TxId) (recipient : Address) (coin : Coin)
  | affiliateFee (tx : TxId) (recipient : Address) (coin : Coin)
  | poolStatusChange (pool : Asset) (before after : PoolStatus)
deriving DecidableEq, Repr

namespace Event

def kind : Event → String
  | addLiquidity .. => "add_liquidity"
  | pendingLiquidity .. => "pending_liquidity"
  | withdraw .. => "withdraw"
  | swap .. => "swap"
  | refund .. => "refund"
  | refundDropped .. => "refund_dropped"
  | streamingSwap .. => "streaming_swap"
  | outbound .. => "outbound"
  | affiliateFee .. => "affiliate_fee"
  | poolStatusChange .. => "pool_status_change"

end Event

end PoolExchange
