import PoolExchange.PoolError

/-!
# StoreError — why a ledger operation fails

Apart from the failures of pools and of requests, a record may be missing, a pool may not take the
operation, stored text may be malformed, or the records may contradict each other.
-/

namespace PoolExchange

/-- Stored text that cannot be read. -/
inductive Malformed
  | limitKey (text : String)
  | ratio (text : String)
  /-- No snapshot at all; the reader's own words are not kept. -/
  | snapshot
deriving DecidableEq, Repr

def Malformed.message : Malformed → String
  | .limitKey text => "invalid limit index key: " ++ text
  | .ratio text => "invalid ratio segment: " ++ text
  | .snapshot => "invalid snapshot"

inductive StoreError
  | notFound (kind key : String)
  | notDepositable (asset : Asset)
  | emptySide (pool : Asset)
  | inconsistent (findings : List String)
  | malformed (what : Malformed)
  | pool (cause : PoolError)
  | input (cause : InputError)
deriving DecidableEq, Repr

namespace StoreError

/-- The words of an operation that the ledger refuses. -/
def refused (reason : String) : String := "State validation failed: " ++ reason

def message : StoreError → String
  | notFound kind key => kind ++ " not found: " ++ key
  | notDepositable asset => refused ("cannot add liquidity to " ++ asset.text)
  | emptySide p => refused ("pool " ++ p.text ++ " has an empty side")
  | inconsistent findings => refused ("; ".intercalate findings)
  | malformed what => "Serialization error: " ++ what.message
  | pool cause => cause.message
  | input cause => cause.message

/-- A short fixed name of the cause; a cause from below follows the name of its layer. -/
def code : StoreError → String
  | notFound .. => "NotFound"
  | notDepositable _ | emptySide _ | inconsistent _ => "ValidationFailed"
  | malformed _ => "Serialization"
  | pool cause => "Amm/" ++ cause.code
  | input cause => "Validation/" ++ cause.code

/-- A later block may succeed with the same request. -/
def isTransient : StoreError → Bool
  | pool cause => cause.isTransient
  | _ => false

end StoreError

end PoolExchange
