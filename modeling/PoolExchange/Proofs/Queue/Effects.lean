import PoolExchange.Proofs.Queue.Journal
import PoolExchange.Proofs.Trade

/-!
# Queue — one effect at a time

What a single effect of a block does to the store.  An order that the pools answer and a payment
leave the queue, the limit index and the streams as they are (`Store.SameBook`), and with a handler
that does so every effect keeps every record under its own key (`Entry.Leads.keyed`).
-/

namespace PoolExchange

namespace Payout

theorem keepFee_sameBook (s : Store) (pool : Pool) (asset : Asset) (fee : Amount) :
    s.SameBook (keepFee s pool asset fee) := by
  rw [keepFee]
  split <;> exact ⟨rfl, rfl, rfl⟩

theorem settled_sameBook (s : Store) (coin : Coin) (config : Config) :
    s.SameBook (settled s coin config) := by
  rcases settled_cases s coin config with h | ⟨pool, -, -, -, -, -, h⟩
  · rw [h]; exact .refl s
  · rw [h]; exact keepFee_sameBook s pool coin.asset _

theorem keyed_settled {s : Store} (hs : s.Keyed) (coin : Coin) (config : Config) :
    (settled s coin config).Keyed := by
  rcases settled_cases s coin config with h | ⟨pool, -, -, -, -, -, h⟩
  · rw [h]; exact hs
  · rw [h, keepFee]
    split
    · exact hs.setPool _
    · exact hs.setSupply _ _
    all_goals exact hs

/-- Paying makes no pool. -/
theorem settled_find?_eq_none {s : Store} (hs : s.Keyed) {k : Asset}
    (h : s.pools.find? k = none) (coin : Coin) (config : Config) :
    (settled s coin config).pools.find? k = none := by
  rcases settled_cases s coin config with he | ⟨pool, hpool, -, -, -, -, he⟩
  · rw [he]; exact h
  · rw [he, keepFee]
    split
    · refine (OrderedMap.find?_insert s.pools pool.asset k _).trans ?_
      rw [if_neg fun e => ?_]
      · exact h
      · rw [e, hs.asset_of_pool? hpool,
          show s.pools.find? coin.asset.layer1 = some pool from hpool] at h
        cases h
    · exact h
    all_goals exact h

end Payout

/-- Dropping a swap leaves pools, positions and supplies alone. -/
theorem BlockRun.frame_dropSwap (s : Store) (swap : Swap) :
    (dropSwap s swap).pools = s.pools ∧ (dropSwap s swap).providers = s.providers ∧
      (dropSwap s swap).supplies = s.supplies ∧
      (dropSwap s swap).queue = s.queue.erase swap.key ∧
      (dropSwap s swap).streams =
        if swap.isStreaming then s.streams.erase swap.tx else s.streams := by
  have hremove : ∀ (s : Store) b k, (s.removeLimit b k).pools = s.pools ∧
      (s.removeLimit b k).providers = s.providers ∧ (s.removeLimit b k).supplies = s.supplies ∧
      (s.removeLimit b k).queue = s.queue ∧ (s.removeLimit b k).streams = s.streams := by
    intro s b k
    simp only [Store.removeLimit]
    split <;> exact ⟨rfl, rfl, rfl, rfl, rfl⟩
  obtain ⟨hp, hv, hs, hq, ht⟩ := hremove (s.removeSwap swap.key) (.ofSwap swap) swap.key
  simp only [dropSwap]
  split <;> split
  · exact ⟨hp, hv, hs, hq, congrArg (·.erase swap.tx) ht⟩
  · exact ⟨rfl, rfl, rfl, rfl, rfl⟩
  · exact ⟨hp, hv, hs, hq, ht⟩
  · exact ⟨rfl, rfl, rfl, rfl, rfl⟩

/-- So does entering one. -/
theorem SwapQueue.frame_enter (s : Store) (swap : Swap) :
    (enter s swap).pools = s.pools ∧ (enter s swap).providers = s.providers ∧
      (enter s swap).supplies = s.supplies ∧
      (enter s swap).queue = s.queue.insert swap.key swap ∧
      (enter s swap).streams =
        if swap.isStreaming then s.streams.insert swap.tx (.ofSwap swap) else s.streams := by
  simp only [enter]
  split <;> split <;> exact ⟨rfl, rfl, rfl, rfl, rfl⟩

theorem BlockRun.swap?_dropSwap (s : Store) (swap : Swap) (k : SwapKey) :
    (dropSwap s swap).swap? k = if k = swap.key then none else s.swap? k := by
  rw [Store.swap?, (frame_dropSwap s swap).2.2.2.1]
  exact OrderedMap.find?_erase s.queue swap.key k

theorem SwapQueue.swap?_enter (s : Store) (swap : Swap) (k : SwapKey) :
    (enter s swap).swap? k = if k = swap.key then some swap else s.swap? k := by
  rw [Store.swap?, (frame_enter s swap).2.2.2.1]
  exact OrderedMap.find?_insert s.queue swap.key k swap

theorem BlockRun.stream?_dropSwap_of_ne (s : Store) (swap : Swap) {tx : TxId} (h : tx ≠ swap.tx) :
    (dropSwap s swap).stream? tx = s.stream? tx := by
  rw [Store.stream?, (frame_dropSwap s swap).2.2.2.2]
  split
  · rw [OrderedMap.find?_erase, if_neg h, ← Store.stream?]
  · rfl

theorem SwapQueue.stream?_enter (s : Store) (swap : Swap) (tx : TxId) :
    (enter s swap).stream? tx =
      if swap.isStreaming = true ∧ tx = swap.tx then some (.ofSwap swap) else s.stream? tx := by
  rw [Store.stream?, (frame_enter s swap).2.2.2.2]
  by_cases hs : swap.isStreaming = true
  · rw [if_pos hs, OrderedMap.find?_insert, ← Store.stream?]
    simp only [hs, true_and]
  · rw [if_neg hs, if_neg fun h => hs h.1, ← Store.stream?]

theorem BlockRun.keyed_dropSwap {s : Store} (hs : s.Keyed) (swap : Swap) :
    (dropSwap s swap).Keyed := by
  have hremove := hs.removeSwap swap.key
  simp only [dropSwap]
  split <;> split
  · exact (hremove.removeLimit _ _).removeStream _
  · exact hremove.removeStream _
  · exact hremove.removeLimit _ _
  · exact hremove

theorem SwapQueue.keyed_enter {s : Store} (hs : s.Keyed) (swap : Swap) : (enter s swap).Keyed := by
  simp only [enter]
  split <;> split
  · exact ((hs.setStream _).insertLimit _ _).setSwap swap
  · exact (hs.insertLimit _ _).setSwap swap
  · exact (hs.setStream _).setSwap swap
  · exact hs.setSwap swap

/-- **Inversion of an acceptance.**  The swap has its number of slices fixed and enters the
store. -/
theorem SwapQueue.accept_inv {q q' : SwapQueue} {s s' : Store} {swap : Swap}
    (h : q.accept s swap = .ok (q', s')) :
    ∃ w, swap.validate = .ok () ∧ s.swap? swap.key = none ∧ q.prepare s swap = .ok w ∧
      q' = { q with fresh := if w.isLimit then q.fresh ++ [w.key] else q.fresh } ∧
      s' = enter s w := by
  rw [accept] at h
  split at h
  · exact absurd h (by simp)
  · rename_i hvalid
    rw [guard_eq_ok, Bool.not_eq_true, Option.isSome_eq_false_iff, Option.isNone_iff_eq_none] at h
    obtain ⟨hnew, h⟩ := h
    split at h
    · exact absurd h (by simp)
    · rename_i w hw
      obtain ⟨rfl, rfl⟩ := Prod.mk.inj (Except.ok.inj h)
      exact ⟨w, hvalid, hnew, hw, rfl, rfl⟩

namespace Order

theorem run_sameBook {o : Order} {config : Config} {l l' : Ledger} {fill : Fill}
    (h : o.run config l = .ok (l', fill)) : l.store.SameBook l'.store := by
  obtain ⟨route, s, -, ht, hstore, -, -⟩ := run_inv h
  rw [hstore]
  exact ht.sameBook.trans (o.settleSupply_sameBook route.emit s)

theorem run_find?_eq_none {o : Order} {config : Config} {l l' : Ledger} {fill : Fill}
    (h : o.run config l = .ok (l', fill)) (hs : l.store.Keyed) {k : Asset}
    (hk : l.store.pools.find? k = none) : l'.store.pools.find? k = none := by
  obtain ⟨route, s, -, ht, hstore, -, -⟩ := run_inv h
  rw [hstore, o.settleSupply_pools]
  exact ht.find?_eq_none hs hk

theorem run_keyed {o : Order} {config : Config} {l l' : Ledger} {fill : Fill}
    (h : o.run config l = .ok (l', fill)) (hs : l.store.Keyed) : l'.store.Keyed := by
  obtain ⟨route, s, -, ht, hstore, -, -⟩ := run_inv h
  rw [hstore]
  exact o.settleSupply_keyed route.emit (ht.keyed hs)

end Order

/-! ### What a handler leaves alone -/

section Handlers

variable {σ : Type} {h : Handler σ}

/-- The handler keeps every record under its own key. -/
def Handler.KeepsKeys (h : Handler σ) : Prop :=
  ∀ (config : Config) (o : Order) (state : σ) (l : Ledger),
    l.store.Keyed → (h.run config o state l).1.2.store.Keyed

/-- The handler leaves the queue, the limit index and the streams alone. -/
def Handler.KeepsBook (h : Handler σ) : Prop :=
  ∀ (config : Config) (o : Order) (state : σ) (l : Ledger),
    l.store.SameBook (h.run config o state l).1.2.store

theorem Handler.pools_keepsKeys : Handler.pools.KeepsKeys := by
  intro config o _ l hs
  rcases pools_cases config o l with ⟨l', fill, hrun, hout⟩ | ⟨e, -, hout⟩ <;> rw [hout]
  · exact Order.run_keyed hrun hs
  · exact hs

theorem Handler.pools_keepsBook : Handler.pools.KeepsBook := by
  intro config o _ l
  rcases pools_cases config o l with ⟨l', fill, hrun, hout⟩ | ⟨e, -, hout⟩ <;> rw [hout]
  · exact Order.run_sameBook hrun
  · exact .refl _

/-- **Every effect keeps every record under its own key.** -/
theorem Entry.Leads.keyed (hk : h.KeepsKeys) {config : Config} {e : Entry} {s : Store}
    (hl : e.Leads h config s) (hs : e.before.Keyed) : s.Keyed := by
  cases hl with
  | order swap role o state l => exact hk config o state l hs
  | refund swap s role coin reason => exact Payout.keyed_settled hs coin config
  | outbound swap s coin => exact Payout.keyed_settled hs coin config
  | share swap s coin => exact hs
  | progress swap s p => exact hs.setStream p
  | drop swap s => exact BlockRun.keyed_dropSwap hs swap
  | retain swap s => exact hs

theorem SwapQueue.keyed_endBlock (hk : h.KeepsKeys) (q : SwapQueue) (height : Nat) (state : σ)
    (l : Ledger) (hs : l.store.Keyed) : (endBlock h q height state l).2.ledger.store.Keyed :=
  endBlock_induct h q height state l hs (fun _ f h => h.setPairFlags f)
    fun _ _ hs hl => hl.keyed hk hs

end Handlers

end PoolExchange
