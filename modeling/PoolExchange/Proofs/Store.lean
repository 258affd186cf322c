import Mathlib.Tactic
import PoolExchange.Proofs.OrderedMap
import PoolExchange.Proofs.Results
import PoolExchange.Store.Snapshot

/-!
# Store — look-ups after updates

What each update changes for each look-up, and two facts about whole stores: every record is
stored under its own key (`Keyed`), and an update leaves the queue, the limit index and the streams
as they were (`SameBook`).
-/

namespace PoolExchange.Store

/-! ### Look-ups -/

theorem find?_setPool (s : Store) (p : Pool) (k : Asset) :
    (s.setPool p).pools.find? k = if k = p.asset then some p else s.pools.find? k :=
  OrderedMap.find?_insert s.pools p.asset k p

theorem pool?_setPool (s : Store) (p : Pool) (a : Asset) :
    (s.setPool p).pool? a = if a.layer1 = p.asset then some p else s.pool? a :=
  s.find?_setPool p a.layer1

theorem provider?_setProvider (s : Store) (v : Provider) (a : Asset) (owner : Address) :
    (s.setProvider v).provider? a owner =
      if (⟨a.layer1, owner⟩ : PositionKey) = v.key then some v else s.provider? a owner :=
  OrderedMap.find?_insert s.providers v.key ⟨a.layer1, owner⟩ v

theorem supply_setSupply (s : Store) (a b : Asset) (n : Amount) :
    (s.setSupply a n).supply b = if b.layer1 = a.layer1 then n else s.supply b := by
  simp only [supply, setSupply, OrderedMap.find?_insert]
  split <;> rfl

theorem swap?_setSwap (s : Store) (w : Swap) (k : SwapKey) :
    (s.setSwap w).swap? k = if k = w.key then some w else s.swap? k :=
  OrderedMap.find?_insert s.queue w.key k w

theorem swap?_removeSwap (s : Store) (k k' : SwapKey) :
    (s.removeSwap k).swap? k' = if k' = k then none else s.swap? k' :=
  OrderedMap.find?_erase s.queue k k'

theorem stream?_setStream (s : Store) (p : SwapStream) (tx : TxId) :
    (s.setStream p).stream? tx = if tx = p.tx then some p else s.stream? tx :=
  OrderedMap.find?_insert s.streams p.tx tx p

theorem stream?_removeStream (s : Store) (tx tx' : TxId) :
    (s.removeStream tx).stream? tx' = if tx' = tx then none else s.stream? tx' :=
  OrderedMap.find?_erase s.streams tx tx'

/-! ### The queue and its index -/

/-- Two stores hold the same swaps, in the same buckets and with the same progress. -/
structure SameBook (s s' : Store) : Prop where
  queue : s'.queue = s.queue
  limits : s'.limits = s.limits
  streams : s'.streams = s.streams

namespace SameBook

theorem refl (s : Store) : SameBook s s := ⟨rfl, rfl, rfl⟩

theorem trans {s s' s'' : Store} (h : SameBook s s') (h' : SameBook s' s'') : SameBook s s'' :=
  ⟨h'.queue.trans h.queue, h'.limits.trans h.limits, h'.streams.trans h.streams⟩

theorem setPool (s : Store) (p : Pool) : SameBook s (s.setPool p) := ⟨rfl, rfl, rfl⟩

theorem setSupply (s : Store) (a : Asset) (n : Amount) : SameBook s (s.setSupply a n) :=
  ⟨rfl, rfl, rfl⟩

end SameBook

/-! ### Keys -/

/-- Every record is stored under its own key. -/
structure Keyed (s : Store) : Prop where
  pool : ∀ k p, s.pools.find? k = some p → p.asset = k
  provider : ∀ k v, s.providers.find? k = some v → v.key = k
  swap : ∀ k w, s.queue.find? k = some w → w.key = k
  stream : ∀ k p, s.streams.find? k = some p → p.tx = k

/-- An insertion under the value's own key keeps every value under its own key. -/
theorem keyed_insert {κ α : Type} [Ord κ] [Std.TransOrd κ] [Std.LawfulEqOrd κ] [DecidableEq κ]
    {m : OrderedMap κ α} (key : α → κ) (h : ∀ k v, m.find? k = some v → key v = k) (v : α) :
    ∀ k w, (m.insert (key v) v).find? k = some w → key w = k :=
  OrderedMap.forall_insert h rfl

theorem keyed_erase {κ α : Type} [Ord κ] [Std.LawfulEqOrd κ] [DecidableEq κ]
    {m : OrderedMap κ α} (key : α → κ) (h : ∀ k v, m.find? k = some v → key v = k) (k₀ : κ) :
    ∀ k w, (m.erase k₀).find? k = some w → key w = k :=
  OrderedMap.forall_erase h k₀

theorem keyed_ofList {κ α : Type} [Ord κ] [Std.TransOrd κ] [Std.LawfulEqOrd κ] [DecidableEq κ]
    (key : α → κ) (vs : List α) :
    ∀ k v, (OrderedMap.ofList (vs.map fun v => (key v, v))).find? k = some v → key v = k := by
  have hinsert : ∀ (vs : List α) (m : OrderedMap κ α), (∀ k v, m.find? k = some v → key v = k) →
      ∀ k v, ((vs.map fun v => (key v, v)).foldl (fun m e => m.insert e.1 e.2) m).find? k =
        some v → key v = k := by
    intro vs
    induction vs with
    | nil => exact fun _ h => h
    | cons v vs ih => exact fun m h => ih _ (keyed_insert key h v)
  exact hinsert vs .empty fun k v h => by cases h

namespace Keyed

theorem empty : Keyed .empty where
  pool k p h := by cases h
  provider k v h := by cases h
  swap k w h := by cases h
  stream k p h := by cases h

variable {s : Store}

theorem setPool (h : s.Keyed) (p : Pool) : (s.setPool p).Keyed where
  pool := keyed_insert Pool.asset h.pool p
  provider := h.provider
  swap := h.swap
  stream := h.stream

theorem setProvider (h : s.Keyed) (v : Provider) : (s.setProvider v).Keyed where
  pool := h.pool
  provider := keyed_insert Provider.key h.provider v
  swap := h.swap
  stream := h.stream

theorem setSupply (h : s.Keyed) (a : Asset) (n : Amount) : (s.setSupply a n).Keyed :=
  ⟨h.pool, h.provider, h.swap, h.stream⟩

theorem setSwap (h : s.Keyed) (w : Swap) : (s.setSwap w).Keyed where
  pool := h.pool
  provider := h.provider
  swap := keyed_insert Swap.key h.swap w
  stream := h.stream

theorem removeSwap (h : s.Keyed) (k : SwapKey) : (s.removeSwap k).Keyed where
  pool := h.pool
  provider := h.provider
  swap := keyed_erase Swap.key h.swap k
  stream := h.stream

theorem setStream (h : s.Keyed) (p : SwapStream) : (s.setStream p).Keyed where
  pool := h.pool
  provider := h.provider
  swap := h.swap
  stream := keyed_insert SwapStream.tx h.stream p

theorem removeStream (h : s.Keyed) (tx : TxId) : (s.removeStream tx).Keyed where
  pool := h.pool
  provider := h.provider
  swap := h.swap
  stream := keyed_erase SwapStream.tx h.stream tx

theorem insertLimit (h : s.Keyed) (b : LimitKey) (k : SwapKey) : (s.insertLimit b k).Keyed :=
  ⟨h.pool, h.provider, h.swap, h.stream⟩

theorem removeLimit (h : s.Keyed) (b : LimitKey) (k : SwapKey) : (s.removeLimit b k).Keyed := by
  unfold Store.removeLimit
  split
  · exact h
  · exact ⟨h.pool, h.provider, h.swap, h.stream⟩

theorem setPairFlags (h : s.Keyed) (flags : List Bool) : (s.setPairFlags flags).Keyed :=
  ⟨h.pool, h.provider, h.swap, h.stream⟩

/-- A store that is restored is keyed, whatever the snapshot holds. -/
theorem ofSnapshot? {text : String} (h : Store.ofSnapshot? text = .ok s) : s.Keyed := by
  rw [Store.ofSnapshot?] at h
  split at h
  · rename_i snapshot _
    rw [Snapshot.toStore?] at h
    obtain ⟨limits, -, h⟩ := bind_eq_ok.mp h
    rw [← pure_eq_ok.mp h]
    exact ⟨keyed_ofList Pool.asset snapshot.pools, keyed_ofList Provider.key snapshot.providers,
      keyed_ofList Swap.key snapshot.queue, keyed_ofList SwapStream.tx snapshot.streams⟩
  · cases h

/-- The pool found for an asset is the pool of its layer-1 form. -/
theorem asset_of_pool? (h : s.Keyed) {a : Asset} {p : Pool} (hp : s.pool? a = some p) :
    p.asset = a.layer1 :=
  h.pool _ p hp

end Keyed

end PoolExchange.Store
