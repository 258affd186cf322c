import PoolExchange.Amount.Share
import PoolExchange.Identity
import PoolExchange.Scale

/-!
# Swap — a queued request

A swap asks for its source coin to be turned into the target asset, for at least `tradeTarget` of
it.  A *market* swap runs at whatever the pools pay, a *limit* swap waits until they pay more than
the target.  A swap with a stream interval is *streaming*: it is cut into slices that run in
different blocks.

An affiliate takes a share of the source (`affiliateAmount`); what remains is swapped
(`primaryAmount`).  Swaps are keyed by transaction and index, and collected by directed pair.
-/

namespace PoolExchange

inductive SwapType
  | market | limit
deriving DecidableEq, Repr

/-! ### Keys and pairs -/

/-- The transaction of a swap and its place in it. -/
@[ext]
structure SwapKey where
  tx : TxId
  index : Nat
deriving DecidableEq, Repr

namespace SwapKey

def text (k : SwapKey) : String := k.tx.text ++ "#" ++ toString k.index

instance : ToString SwapKey := ⟨text⟩
instance : Ord SwapKey := ⟨compareLex (compareOn tx) (compareOn index)⟩
instance : Std.TransOrd SwapKey :=
  inferInstanceAs (Std.TransCmp (compareLex (compareOn tx) (compareOn index)))
instance : Std.LawfulEqOrd SwapKey where
  eq_of_compare {a b} h := by
    have h : compareLex (compareOn tx) (compareOn index) a b = .eq := h
    simp only [compareLex_eq_eq, compareOn, Std.LawfulEqOrd.compare_eq_iff_eq] at h
    exact SwapKey.ext h.1 h.2

end SwapKey

/-- A direction of trade. -/
@[ext]
structure Pair where
  source : Asset
  target : Asset
deriving DecidableEq, Repr

namespace Pair

/-- One side is native, so one pool is enough for the trade. -/
def hasNative (p : Pair) : Bool := p.source.isNative || p.target.isNative

def text (p : Pair) : String := p.source.text ++ ">" ++ p.target.text

instance : ToString Pair := ⟨text⟩
instance : Ord Pair := ⟨compareLex (compareOn source) (compareOn target)⟩
instance : Std.TransOrd Pair :=
  inferInstanceAs (Std.TransCmp (compareLex (compareOn source) (compareOn target)))
instance : Std.LawfulEqOrd Pair where
  eq_of_compare {a b} h := by
    have h : compareLex (compareOn source) (compareOn target) a b = .eq := h
    simp only [compareLex_eq_eq, compareOn, Std.LawfulEqOrd.compare_eq_iff_eq] at h
    exact Pair.ext h.1 h.2

end Pair

/-! ### Swaps -/

@[ext]
structure Affiliate where
  address : Address
  basisPoints : Nat
deriving DecidableEq, Repr

@[ext]
structure Swap where
  tx : TxId
  index : Nat
  sender : Address
  source : Coin
  target : Asset
  destination : Address
  /-- The least acceptable emission. -/
  tradeTarget : Amount
  type : SwapType
  streamInterval : Nat
  streamQuantity : Nat
  affiliate : Option Affiliate
  /-- The block in which the swap entered the queue. -/
  initialHeight : Nat
deriving DecidableEq, Repr

namespace Swap

def key (s : Swap) : SwapKey := ⟨s.tx, s.index⟩

def pair (s : Swap) : Pair := ⟨s.source.asset, s.target⟩

def isLimit (s : Swap) : Bool := s.type == .limit

def isStreaming (s : Swap) : Bool := 0 < s.streamInterval

/-- The part of the source that goes to the affiliate. -/
def affiliateAmount (s : Swap) : Amount :=
  match s.affiliate with
  | some a =>
    if 0 < a.basisPoints then
      Amount.cappedShare (.clamp a.basisPoints) (.clamp fullBasisPoints) s.source.amount
    else 0
  | none => 0

/-- The part of the source that is swapped. -/
def primaryAmount (s : Swap) : Amount := s.source.amount - s.affiliateAmount

def validate (s : Swap) : Except InputError Unit :=
  if s.source.amount.isZero then .error (.zeroAmount "source")
  else if s.source.asset = s.target then
    .error (.custom ("source and target are both " ++ s.target.text))
  else if s.isLimit && s.tradeTarget.isZero then .error (.zeroAmount "limit trade target")
  else
    match s.affiliate with
    | some a =>
      if fullBasisPoints < a.basisPoints then
        .error (.invalidBasisPoints a.basisPoints 0 fullBasisPoints)
      else .ok ()
    | none => .ok ()

end Swap

end PoolExchange
