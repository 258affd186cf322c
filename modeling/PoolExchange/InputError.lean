import PoolExchange.Amount

/-!
# InputError — why a request is refused before anything is computed
-/

namespace PoolExchange

inductive InputError
  | invalidAsset (text : String)
  | invalidTxId (text : String)
  | emptyAddress
  | zeroAmount (field : String)
  /-- Accepted are the basis points above `low` and up to `high`. -/
  | invalidBasisPoints (value low high : Nat)
  | custom (reason : String)
deriving DecidableEq, Repr

def InputError.message : InputError → String
  | .invalidAsset text =>
    "invalid asset '" ++ text ++
      "': expected CHAIN.SYMBOL, CHAIN/SYMBOL, CHAIN~SYMBOL or CHAIN-SYMBOL"
  | .invalidTxId text => "invalid tx id '" ++ text ++ "': expected 64 hex characters"
  | .emptyAddress => "address cannot be empty"
  | .zeroAmount field => field ++ " amount cannot be zero"
  | .invalidBasisPoints value low high =>
    "basis points " ++ toString value ++ " is outside (" ++ toString low ++ ", " ++
      toString high ++ "]"
  | .custom reason => "validation failed: " ++ reason

/-- A short fixed name of the cause. -/
def InputError.code : InputError → String
  | .invalidAsset _ => "InvalidAsset"
  | .invalidTxId _ => "InvalidTxId"
  | .emptyAddress => "EmptyAddress"
  | .zeroAmount _ => "ZeroAmount"
  | .invalidBasisPoints .. => "InvalidBasisPoints"
  | .custom _ => "Custom"

end PoolExchange
