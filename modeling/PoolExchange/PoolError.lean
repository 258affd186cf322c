import PoolExchange.Asset
import PoolExchange.InputError

/-!
# PoolError — why a trade, a deposit or a withdrawal fails
-/

namespace PoolExchange

/-- The sides of a pool. -/
inductive PoolSide
  | native | asset
deriving DecidableEq, Repr

def PoolSide.name : PoolSide → String
  | .native => "native"
  | .asset => "asset"

inductive PoolError
  | zeroTotalNative
  | zeroTotalAsset
  | zeroUnitDenominator
  | invalidWithdrawBasisPoints (value : Nat)
  | zeroPoolUnits (pool : Asset)
  | zeroPoolBalance (pool : Asset) (side : PoolSide)
  | noUnitsLeft
  | oneSidedFullWithdraw
  | unitsIncreased (before after : Amount)
  | poolNotFound (pool : Asset)
  | poolNotAvailable (pool : Asset)
  | syntheticPool (pool : Asset)
  | invalidAmount
  | invalidBalance
  | notEnoughBalance
  | zeroEmission
  /-- The emission falls short of what was asked for. -/
  | priceLimit (emitted limit : Amount)
  | sameAsset (asset : Asset)
  | noPoolsSelected
  | streamCompleted
  | amount (cause : AmountError)
  | input (cause : InputError)
deriving DecidableEq, Repr

namespace PoolError

def message : PoolError → String
  | zeroTotalNative => "total native in the pool is zero"
  | zeroTotalAsset => "total asset in the pool is zero"
  | zeroUnitDenominator => "liquidity unit denominator is zero"
  | invalidWithdrawBasisPoints value =>
    "withdraw basis points " ++ toString value ++ " is not valid, needs to be in (0, 10000]"
  | zeroPoolUnits pool => pool.text ++ " pool units is zero, cannot withdraw"
  | zeroPoolBalance pool side =>
    pool.text ++ " pool " ++ side.name ++ " balance is zero and can't withdraw"
  | noUnitsLeft => "liquidity provider has zero units, cannot withdraw"
  | oneSidedFullWithdraw => "cannot withdraw 100% of one side of the pool"
  | unitsIncreased before after =>
    "liquidity provider units increased from " ++ before.text ++ " to " ++ after.text
  | poolNotFound pool => "pool " ++ pool.text ++ " doesn't exist"
  | poolNotAvailable pool => "pool(" ++ pool.text ++ ") is not available"
  | syntheticPool pool => "swapping with a synthetic pool(" ++ pool.text ++ ") is not allowed"
  | invalidAmount => "amount is invalid"
  | invalidBalance => "invalid balance"
  | notEnoughBalance => "not enough balance"
  | zeroEmission => "zero emit asset"
  | priceLimit emitted limit =>
    "emit asset " ++ emitted.text ++ " less than price limit " ++ limit.text
  | sameAsset asset =>
    "cannot swap from " ++ asset.text ++ " --> " ++ asset.text ++ ", assets match"
  | noPoolsSelected => "no pools selected during a streaming swap"
  | streamCompleted => "streaming swap is completed, cannot continue to swap again"
  | amount cause => cause.message
  | input cause => cause.message

/-- A short fixed name of the cause; a cause from below follows the name of its layer. -/
def code : PoolError → String
  | zeroTotalNative => "ZeroTotalNative"
  | zeroTotalAsset => "ZeroTotalAsset"
  | zeroUnitDenominator => "ZeroUnitDenominator"
  | invalidWithdrawBasisPoints _ => "InvalidWithdrawBasisPoints"
  | zeroPoolUnits _ => "ZeroPoolUnits"
  | zeroPoolBalance .. => "ZeroPoolBalance"
  | noUnitsLeft => "NoUnitsLeft"
  | oneSidedFullWithdraw => "OneSidedFullWithdraw"
  | unitsIncreased .. => "UnitsIncreased"
  | poolNotFound _ => "PoolNotFound"
  | poolNotAvailable _ => "PoolNotAvailable"
  | syntheticPool _ => "SyntheticPool"
  | invalidAmount => "InvalidAmount"
  | invalidBalance => "InvalidBalance"
  | notEnoughBalance => "NotEnoughBalance"
  | zeroEmission => "ZeroEmission"
  | priceLimit .. => "PriceLimit"
  | sameAsset _ => "SameAsset"
  | noPoolsSelected => "NoPoolsSelected"
  | streamCompleted => "StreamingSwapCompleted"
  | amount cause => "Math/" ++ cause.code
  | input cause => "Validation/" ++ cause.code

/-- A later block may succeed with the same request. -/
def isTransient : PoolError → Bool
  | priceLimit _ _ => true
  | _ => false

/-- Lifts the outcome of an arithmetic operation. -/
def ofAmount {α : Type} : Except AmountError α → Except PoolError α
  | .ok a => .ok a
  | .error e => .error (.amount e)

end PoolError

end PoolExchange
