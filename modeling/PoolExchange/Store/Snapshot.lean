import PoolExchange.Json.Reader
import PoolExchange.Json.Records
import PoolExchange.Store

/-!
# Store — snapshots

A snapshot is a JSON text that holds the whole store.  Restoring it gives the store back, except
that the synthetic units of the pools, which are computed and not stored, are zero.  The buckets
of the limit index are written with the text of their keys.

Everything is read before anything is replaced: a text that is refused yields no store.
-/

namespace PoolExchange

/-- The parts of a snapshot. -/
structure Snapshot where
  pools : List Pool
  providers : List Provider
  supplies : List (Asset × Amount)
  queue : List Swap
  limits : List (String × List SwapKey)
  pairFlags : List Bool
  streams : List SwapStream

namespace Snapshot

def fieldNames : List String :=
  ["pools", "providers", "synth_supply", "queue", "limit_index", "pair_bitset", "streaming"]

instance : Codec Snapshot where
  toJson s := .object [
    ("pools", toJson s.pools),
    ("providers", toJson s.providers),
    ("synth_supply", toJson s.supplies),
    ("queue", toJson s.queue),
    ("limit_index", toJson s.limits),
    ("pair_bitset", toJson s.pairFlags),
    ("streaming", toJson s.streams)]
  ofJson? j := do
    let r ← j.record? fieldNames
    return {
      pools := ← r.get "pools"
      providers := ← r.get "providers"
      supplies := ← r.get "synth_supply"
      queue := ← r.get "queue"
      limits := ← r.get "limit_index"
      pairFlags := ← r.get "pair_bitset"
      streams := ← r.get "streaming" }

def ofStore (s : Store) : Snapshot where
  pools := s.pools.values
  providers := s.providers.values
  supplies := s.supplies.entries
  queue := s.queue.values
  limits := s.limits.entries.map fun e => (e.1.text, e.2)
  pairFlags := s.pairFlags
  streams := s.streams.values

/-- A bucket with its key read. -/
def readBucket (b : String × List SwapKey) : Except StoreError (LimitKey × List SwapKey) := do
  return (← LimitKey.read? b.1, b.2)

/-- The store that the snapshot holds. -/
def toStore? (s : Snapshot) : Except StoreError Store := do
  let limits ← s.limits.mapM readBucket
  return {
    pools := .ofList (s.pools.map fun p => (p.asset, p))
    providers := .ofList (s.providers.map fun p => (p.key, p))
    supplies := .ofList s.supplies
    queue := .ofList (s.queue.map fun q => (q.key, q))
    limits := .ofList limits
    pairFlags := s.pairFlags
    streams := .ofList (s.streams.map fun q => (q.tx, q)) }

end Snapshot

namespace Store

def toJson (s : Store) : Json := Codec.toJson (Snapshot.ofStore s)

/-- The text that holds the store. -/
def snapshot (s : Store) : String := s.toJson.compact

/-- The store that a snapshot holds. -/
def ofSnapshot? (text : String) : Except StoreError Store :=
  match (Json.read? text).bind Codec.ofJson? with
  | some (s : Snapshot) => s.toStore?
  | none => .error (.malformed .snapshot)

end Store

end PoolExchange
