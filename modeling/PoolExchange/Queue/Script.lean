import PoolExchange.Queue.Order

/-!
# Queue — prepared outcomes

A scripted handler answers orders from a list of prepared outcomes and keeps a record of every
order with its outcome.  Where an outcome says so, and after the last one, it trades with the
pools; otherwise it leaves the ledger as it is.
-/

namespace PoolExchange

/-- A prepared outcome. -/
inductive Outcome
  /-- Trade with the pools. -/
  | pools
  /-- Pay so much of the target. -/
  | emit (amount : Amount)
  | fail (error : OrderError)
deriving DecidableEq, Repr

/-- The outcomes that are left, and the orders so far, oldest first. -/
structure Script where
  left : List Outcome
  calls : List (Order × Except OrderError Coin) := []

namespace Handler

/-- Runs an order with an outcome. -/
def play (outcome : Outcome) (config : Config) (order : Order) (l : Ledger) :
    Ledger × Except OrderError Fill :=
  match outcome with
  | .pools =>
    match order.run config l with
    | .ok (l, fill) => (l, .ok fill)
    | .error e => (l, .error e)
  | .emit amount => (l, .ok ⟨⟨order.target, amount⟩, 0, 0⟩)
  | .fail e => (l, .error e)

def scripted : Handler Script where
  run config order script l :=
    let out := play (script.left.head?.getD .pools) config order l
    let call := (order, out.2.map Fill.emit)
    (({ left := script.left.drop 1, calls := script.calls ++ [call] }, out.1), out.2)

end Handler

end PoolExchange
