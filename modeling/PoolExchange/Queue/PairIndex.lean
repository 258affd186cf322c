import PoolExchange.Store

/-!
# Queue — the pairs to walk

The assets that can be traded now are native, then the available pools in their order.  The pair
index lists every ordered pair of different ones.  A block remembers which pairs its trades may
have improved as one flag per pair; the flags are read back only by an index of the same length.

A trade into native improves the pairs that buy its source, a trade out of native the pairs that
sell its target, and any other trade both.
-/

namespace PoolExchange

/-- The pairs of a block, in order. -/
@[ext]
structure PairIndex where
  pairs : List Pair
deriving DecidableEq, Repr

namespace PairIndex

/-- Every ordered pair of different assets. -/
def ofAssets (assets : List Asset) : PairIndex :=
  ⟨assets.flatMap fun source =>
    (assets.filter fun target => source ≠ target).map fun target => ⟨source, target⟩⟩

/-- The assets that can be traded. -/
def tradable (s : Store) : List Asset :=
  .native :: (s.pools.values.filter fun p => p.isAvailable && !p.asset.isSynthetic).map Pool.asset

def ofStore (s : Store) : PairIndex := ofAssets (tradable s)

def size (i : PairIndex) : Nat := i.pairs.length

/-- The flagged pairs, unless the flags are those of another index. -/
def decode? (i : PairIndex) (flags : List Bool) : Option (List Pair) :=
  if flags.length = i.size then
    some (((i.pairs.zip flags).filter fun e => e.2).map Prod.fst)
  else none

/-- One flag per pair. -/
def encode (i : PairIndex) (flagged : List Pair) : List Bool :=
  i.pairs.map fun p => decide (p ∈ flagged)

/-- A trade of the pair `trade` may have improved `pair`. -/
def improves (trade pair : Pair) : Bool :=
  if trade.source.isNative then pair.source = trade.target
  else if trade.target.isNative then pair.target = trade.source
  else pair.source = trade.target || pair.target = trade.source

/-- Adds an element at the end, unless it is there. -/
def addNew (pairs : List Pair) (pair : Pair) : List Pair :=
  if pair ∈ pairs then pairs else pairs ++ [pair]

/-- Flags the pairs that a trade may have improved. -/
def flagMatching (i : PairIndex) (flagged : List Pair) (trade : Pair) : List Pair :=
  (i.pairs.filter (improves trade)).foldl addNew flagged

end PairIndex

end PoolExchange
