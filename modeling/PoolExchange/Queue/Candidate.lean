import PoolExchange.Store

/-!
# Queue — the candidates of a block

Every market swap that is ready is a candidate.  Limit swaps are found by walking the buckets of a
pair, best ratio first: a bucket *clears* when its ratio is above the one at which the pools trade
without a fee, and the first bucket that does not clear ends the walk, because all later ones ask
for more.  A swap of a clearing bucket is a candidate when it is ready and what the pools emit,
with the fee and after the affiliate's share, is above its trade target.

A streaming swap is ready when its next slice is due, unless streaming is paused; any other swap is
always ready.
-/

namespace PoolExchange

/-- A queued swap with its score. -/
@[ext]
structure Candidate where
  swap : Swap
  /-- The fee over all legs, in native units. -/
  fee : Amount
  /-- The slip over all legs. -/
  slip : Amount
deriving DecidableEq, Repr

/-- A swap without a score. -/
def Candidate.ofSwap (s : Swap) : Candidate := ⟨s, 0, 0⟩

/-- The stream of a swap before its first slice. -/
def SwapStream.ofSwap (s : Swap) : SwapStream :=
  .new s.tx s.streamInterval s.streamQuantity s.tradeTarget s.primaryAmount

namespace Store

/-- The progress of a streaming swap. -/
def progress (s : Store) (swap : Swap) : SwapStream :=
  (s.stream? swap.tx).getD (.ofSwap swap)

/-- The swap may run at this height. -/
def isReady (s : Store) (swap : Swap) (height : Nat) (config : Config) : Bool :=
  if !swap.isStreaming then true
  else if config.streaming.pause then false
  else (s.progress swap).isDue height

end Store

namespace PoolSource

/-- The ratio at which the pools trade a pair without a fee. -/
def feelessRatio? (pools : PoolSource) (pair : Pair) : Option Ratio :=
  if pair.source.isNative then
    (pools.pool? pair.target).map fun p => Ratio.of p.balanceNative p.balanceAsset
  else if pair.target.isNative then
    (pools.pool? pair.source).map fun p => Ratio.of p.balanceAsset p.balanceNative
  else
    match pools.pool? pair.source, pools.pool? pair.target with
    | some first, some second =>
      let one := Amount.clamp wholeCoin
      let native := Amount.share one first.balanceAsset first.balanceNative
      some (Ratio.of one (Amount.share native second.balanceNative second.balanceAsset))
    | _, _ => none

/-- The bucket asks for less than the pools pay without a fee. -/
def clears (pools : PoolSource) (pair : Pair) (bucket : Ratio) : Bool :=
  match pools.feelessRatio? pair with
  | some r => r.value < bucket.value
  | none => false

/-- What the pools emit for an amount of the pair's source, by the curve alone. -/
def emission? (pools : PoolSource) (pair : Pair) (amount : Amount) : Option Amount :=
  if pair.source.isNative then
    (pools.pool? pair.target).map fun p => Curve.emission p.balanceNative amount p.balanceAsset
  else if pair.target.isNative then
    (pools.pool? pair.source).map fun p => Curve.emission p.balanceAsset amount p.balanceNative
  else
    match pools.pool? pair.source, pools.pool? pair.target with
    | some first, some second =>
      let native := Curve.emission first.balanceAsset amount first.balanceNative
      some (Curve.emission second.balanceNative native second.balanceAsset)
    | _, _ => none

/-- The pools emit more for the swap than it asks for. -/
def fills (pools : PoolSource) (swap : Swap) : Bool :=
  match pools.emission? swap.pair swap.primaryAmount with
  | some emit => swap.tradeTarget < emit
  | none => false

end PoolSource

namespace Store

/-- The queued swap of a bucket's entry, if it is a candidate. -/
def admit? (s : Store) (height : Nat) (config : Config) (key : SwapKey) : Option Swap :=
  (s.swap? key).filter fun swap => s.isReady swap height config && s.source.fills swap

/-- The limit swaps of a pair that are candidates. -/
def discover (s : Store) (pair : Pair) (height : Nat) (config : Config) : List Candidate :=
  ((s.bucketsOf pair).takeWhile fun b => s.source.clears pair b.1.ratio).flatMap fun b =>
    (b.2.filterMap (s.admit? height config)).map .ofSwap

/-- The market swaps that are candidates. -/
def markets (s : Store) (height : Nat) (config : Config) : List Candidate :=
  (s.queue.values.filter fun swap => !swap.isLimit && s.isReady swap height config).map .ofSwap

/-- The market swaps and the limit swaps of the flagged pairs. -/
def fetch (s : Store) (flagged : List Pair) (height : Nat) (config : Config) : List Candidate :=
  s.markets height config ++ flagged.flatMap fun pair => s.discover pair height config

end Store

end PoolExchange
