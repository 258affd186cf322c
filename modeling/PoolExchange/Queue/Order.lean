import PoolExchange.Ledger
import PoolExchange.StoreError

/-!
# Queue — running one order

An `Order` is a trade to make now.  A `Handler` makes it, or says why it cannot; it may keep a
state of its own between orders.  `Handler.pools` trades with the pools of the store: it prices
the route, stores its pools, mints the synthetic supply of the target and burns that of the
source, and reports one swap per leg.  An order it refuses leaves everything as it was.
-/

namespace PoolExchange

/-- A trade to make now. -/
@[ext]
structure Order where
  tx : TxId
  source : Coin
  target : Asset
  /-- The least acceptable emission; zero asks for nothing. -/
  tradeTarget : Amount
  destination : Address
deriving DecidableEq, Repr

/-- What a trade paid. -/
@[ext]
structure Fill where
  emit : Coin
  feeInNative : Amount
  /-- The slip over all legs. -/
  slip : Amount
deriving DecidableEq, Repr

/-- Why an order could not be run. -/
inductive OrderError
  | pool (cause : PoolError)
  | input (cause : InputError)
  | store (cause : StoreError)
deriving DecidableEq, Repr

namespace OrderError

def message : OrderError → String
  | pool cause => cause.message
  | input cause => cause.message
  | store cause => cause.message

/-- A short fixed name of the cause; a cause from below follows the name of its layer. -/
def code : OrderError → String
  | pool cause => "Amm/" ++ cause.code
  | input cause => "Validation/" ++ cause.code
  | store cause => "State/" ++ cause.code

/-- A later block may succeed with the same order. -/
def isTransient : OrderError → Bool
  | pool cause => cause.isTransient
  | store cause => cause.isTransient
  | input _ => false

end OrderError

namespace Order

def validate (o : Order) : Except InputError Unit :=
  if o.source.amount.isZero then .error (.zeroAmount "swap input")
  else if o.destination.text.isEmpty then .error .emptyAddress
  else .ok ()

/-- The store with the supply of the target minted and that of the source burned. -/
def settleSupply (o : Order) (emit : Amount) (s : Store) : Store :=
  let s := if o.target.isSynthetic then s.setSupply o.target (s.supply o.target + emit) else s
  let source := o.source.asset
  if source.isSynthetic then s.setSupply source (s.supply source - o.source.amount) else s

/-- The report of a leg. -/
def legEvent (o : Order) (leg : Leg) : Event :=
  .swap leg.pool.asset o.tx ⟨leg.source, leg.input⟩ ⟨leg.target, leg.emit⟩ leg.fee
    leg.feeInNative leg.slip

/-- Trades with the pools of the store. -/
def run (o : Order) (config : Config) (l : Ledger) : Except OrderError (Ledger × Fill) :=
  match o.validate with
  | .error e => .error (.input e)
  | .ok _ =>
    match Route.find l.store.source o.source.asset o.target o.source.amount o.tradeTarget
        config with
    | .error e => .error (.pool e)
    | .ok route =>
      let store := o.settleSupply route.emit (l.store.setPools route.pools)
      let next := (l.withStore store).emitAll (route.legs.map o.legEvent)
      .ok (next, {
        emit := ⟨o.target, route.emit⟩
        feeInNative := route.feeInNative
        slip := Amount.sum (route.legs.map Leg.slip) })

end Order

/-- Something that runs orders, with a state of its own. -/
structure Handler (σ : Type) where
  run : Config → Order → σ → Ledger → (σ × Ledger) × Except OrderError Fill

namespace Handler

/-- The handler that trades with the pools. -/
def pools : Handler Unit where
  run config order _ ledger :=
    match order.run config ledger with
    | .ok (ledger, fill) => (((), ledger), .ok fill)
    | .error e => (((), ledger), .error e)

end Handler

end PoolExchange
