import PoolExchange.Identity

/-!
# Provider — the position of one owner in one pool

A position holds units and, between the two halves of a deposit, what was *staged*: the pending
amounts and the transaction that brought them.  Positions are never deleted; a position without
units and without anything pending is *closed*.
-/

namespace PoolExchange

/-- The pool of a position and its owner. -/
@[ext]
structure PositionKey where
  pool : Asset
  owner : Address
deriving DecidableEq, Repr

namespace PositionKey

instance : Ord PositionKey := ⟨compareLex (compareOn pool) (compareOn owner)⟩
instance : Std.TransOrd PositionKey :=
  inferInstanceAs (Std.TransCmp (compareLex (compareOn pool) (compareOn owner)))
instance : Std.LawfulEqOrd PositionKey where
  eq_of_compare {a b} h := by
    have h : compareLex (compareOn pool) (compareOn owner) a b = .eq := h
    simp only [compareLex_eq_eq, compareOn, Std.LawfulEqOrd.compare_eq_iff_eq] at h
    exact PositionKey.ext h.1 h.2

end PositionKey

@[ext]
structure Provider where
  asset : Asset
  owner : Address
  units : Amount
  pendingNative : Amount
  pendingAsset : Amount
  pendingTx : Option TxId
  nativeDepositValue : Amount
  assetDepositValue : Amount
  lastAddHeight : Nat
  lastWithdrawHeight : Nat
deriving DecidableEq, Repr

namespace Provider

/-- The position of `owner` before the first deposit. -/
def new (asset : Asset) (owner : Address) : Provider where
  asset := asset.layer1
  owner := owner
  units := 0
  pendingNative := 0
  pendingAsset := 0
  pendingTx := none
  nativeDepositValue := 0
  assetDepositValue := 0
  lastAddHeight := 0
  lastWithdrawHeight := 0

def key (p : Provider) : PositionKey := ⟨p.asset, p.owner⟩

def hasPending (p : Provider) : Bool := !p.pendingNative.isZero || !p.pendingAsset.isZero

def isClosed (p : Provider) : Bool := p.units.isZero && !p.hasPending

/-- The position with nothing staged. -/
def clearPending (p : Provider) : Provider :=
  { p with pendingNative := 0, pendingAsset := 0, pendingTx := none }

end Provider

end PoolExchange
