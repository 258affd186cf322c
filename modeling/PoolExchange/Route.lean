import PoolExchange.Leg

/-!
# Route — a trade between any two assets

Pools are read from a `PoolSource`.  A trade with a native side is one leg; any other trade is two
legs, from the source to native and from native to the target, and only the final emission counts
against the trade target.  When both legs meet the same pool, as between an asset and its synthetic
form, the second leg sees what the first one left.
-/

namespace PoolExchange

/-- A view of the pools and of the outstanding synthetic supplies. -/
structure PoolSource where
  /-- The pool of an asset of any kind. -/
  pool? : Asset → Option Pool
  /-- The supply of the synthetic form of an asset. -/
  supply : Asset → Amount

namespace PoolSource

/-- The native depth of the pool of the asset that `derived` stands for. -/
def anchorDepth (pools : PoolSource) (derived : Asset) : Amount :=
  match derived.anchor?.bind pools.pool? with
  | some pool => pool.balanceNative
  | none => 0

def findPool (pools : PoolSource) (asset : Asset) : Except PoolError Pool :=
  match pools.pool? asset with
  | some pool => .ok pool
  | none => .error (.poolNotFound asset.layer1)

/-- The pool of an asset, with its synthetic units computed. -/
def load (pools : PoolSource) (asset : Asset) : Except PoolError Pool :=
  (·.withSynths (pools.supply asset)) <$> pools.findPool asset

end PoolSource

/-- A priced trade. -/
@[ext]
structure Route where
  legs : List Leg
  /-- The amount of the target asset. -/
  emit : Amount
  feeInNative : Amount
deriving DecidableEq, Repr

namespace Route

def isDouble (r : Route) : Bool := 1 < r.legs.length

/-- Replaces the pool with the same asset, or adds `pool` at the end. -/
def putPool (pools : List Pool) (pool : Pool) : List Pool :=
  if pools.any fun p => p.asset = pool.asset then
    pools.map fun p => if p.asset = pool.asset then pool else p
  else pools ++ [pool]

/-- The final state of every pool of the route. -/
def pools (r : Route) : List Pool :=
  r.legs.foldl (fun acc leg => putPool acc leg.pool) []

/-- The first of two legs, which sells the source for native. -/
def firstLeg (pools : PoolSource) (source : Asset) (amount : Amount) (config : Config) :
    Except PoolError Leg := do
  let leg ← Leg.trade (← pools.load source) source .native amount config
  if leg.emit.isZero then .error .zeroEmission else .ok leg

/-- The legs of a trade of `amount`. -/
def trace (pools : PoolSource) (source target : Asset) (amount : Amount) (config : Config) :
    Except PoolError (List Leg) :=
  if target.isNative then do
    return [← Leg.trade (← pools.load source) source target amount config]
  else if source.isNative then do
    return [← Leg.trade (← pools.load target) .native target amount config]
  else do
    let first ← firstLeg pools source amount config
    let pool ←
      if first.pool.asset = target.layer1 then pure first.pool else pools.load target
    return [first, ← Leg.trade pool .native target first.emit config]

/-- Prices a trade.  A trade target of zero asks for nothing. -/
def find (pools : PoolSource) (source target : Asset) (amount tradeTarget : Amount)
    (config : Config) : Except PoolError Route :=
  if source = target then .error (.sameAsset source)
  else do
    let legs ← trace pools source target amount config
    let emit := (legs.getLast?.map Leg.emit).getD 0
    if !tradeTarget.isZero && emit < tradeTarget then .error (.priceLimit emit tradeTarget)
    else if emit.isZero then .error .zeroEmission
    else .ok ⟨legs, emit, Amount.sum (legs.map Leg.feeInNative)⟩

end Route

end PoolExchange
