import PoolExchange.LimitKey
import PoolExchange.OrderedMap
import PoolExchange.Provider
import PoolExchange.Route
import PoolExchange.SwapStream

/-!
# Store — everything the exchange remembers

The store holds the pools, the providers' positions, the synthetic supplies, the queued swaps, the
buckets of the limit index, the flags of the pairs to walk, and the progress of the streams.  All
of it is in the order of its keys.

Pools, positions and supplies are looked up by the layer-1 form of an asset.  A pool is stored
under its own asset, and a position under its own asset and owner.  Streams are kept by
transaction.

No bucket of the limit index holds a swap twice, and a bucket that loses its last swap goes with
it.
-/

namespace PoolExchange

@[ext]
structure Store where
  pools : OrderedMap Asset Pool
  providers : OrderedMap PositionKey Provider
  supplies : OrderedMap Asset Amount
  queue : OrderedMap SwapKey Swap
  limits : OrderedMap LimitKey (List SwapKey)
  pairFlags : List Bool
  streams : OrderedMap TxId SwapStream
deriving DecidableEq, Repr

namespace Store

def empty : Store where
  pools := .empty
  providers := .empty
  supplies := .empty
  queue := .empty
  limits := .empty
  pairFlags := []
  streams := .empty

instance : Inhabited Store := ⟨empty⟩

/-! ### Pools, positions and supplies -/

def pool? (s : Store) (asset : Asset) : Option Pool := s.pools.find? asset.layer1

def setPool (s : Store) (pool : Pool) : Store :=
  { s with pools := s.pools.insert pool.asset pool }

def setPools (s : Store) (pools : List Pool) : Store := pools.foldl setPool s

def provider? (s : Store) (pool : Asset) (owner : Address) : Option Provider :=
  s.providers.find? ⟨pool.layer1, owner⟩

def setProvider (s : Store) (provider : Provider) : Store :=
  { s with providers := s.providers.insert provider.key provider }

/-- The positions in a pool. -/
def providersOf (s : Store) (pool : Asset) : List Provider :=
  s.providers.values.filter fun p => p.asset = pool.layer1

/-- The outstanding supply of an asset's synthetic form. -/
def supply (s : Store) (asset : Asset) : Amount := (s.supplies.find? asset.layer1).getD 0

def setSupply (s : Store) (asset : Asset) (supply : Amount) : Store :=
  { s with supplies := s.supplies.insert asset.layer1 supply }

/-- The store as a source of pools. -/
def source (s : Store) : PoolSource := ⟨s.pool?, s.supply⟩

/-! ### Queue and streams -/

def swap? (s : Store) (key : SwapKey) : Option Swap := s.queue.find? key

def setSwap (s : Store) (swap : Swap) : Store :=
  { s with queue := s.queue.insert swap.key swap }

def removeSwap (s : Store) (key : SwapKey) : Store := { s with queue := s.queue.erase key }

def stream? (s : Store) (tx : TxId) : Option SwapStream := s.streams.find? tx

def setStream (s : Store) (stream : SwapStream) : Store :=
  { s with streams := s.streams.insert stream.tx stream }

def removeStream (s : Store) (tx : TxId) : Store := { s with streams := s.streams.erase tx }

/-! ### Limit index -/

/-- The swaps of a bucket, in the order of their arrival. -/
def bucket (s : Store) (key : LimitKey) : List SwapKey := (s.limits.find? key).getD []

/-- Adds a swap to a bucket, unless it is there. -/
def insertLimit (s : Store) (key : LimitKey) (swap : SwapKey) : Store :=
  let swaps := s.bucket key
  { s with limits := s.limits.insert key (if swap ∈ swaps then swaps else swaps ++ [swap]) }

/-- Takes a swap out of a bucket. -/
def removeLimit (s : Store) (key : LimitKey) (swap : SwapKey) : Store :=
  match s.limits.find? key with
  | none => s
  | some swaps =>
    let rest := swaps.filter (· ≠ swap)
    { s with limits := if rest.isEmpty then s.limits.erase key else s.limits.insert key rest }

/-- The buckets of a pair, best ratio first. -/
def bucketsOf (s : Store) (pair : Pair) : List (LimitKey × List SwapKey) :=
  s.limits.entries.filter fun e => e.1.pair = pair && e.1.ratio.value ≤ Ratio.maxValue

/-- The number of swaps in the limit index. -/
def limitCount (s : Store) : Nat := s.limits.values.flatten.length

/-! ### Pair flags -/

def setPairFlags (s : Store) (flags : List Bool) : Store := { s with pairFlags := flags }

end Store

end PoolExchange
