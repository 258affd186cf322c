import PoolExchange.Proofs.Queue.Account
import PoolExchange.Proofs.Queue.Walk

/-!
# Queue — the pairs a block flags

A block trades, pays and takes swaps out of the queue; none of it lists a pool or takes one off the
list (`Store.shelf`), so the index is the same before and after.  A swap reports that it was filled
exactly when one of its parts was sold (`Journal.tallies_execute`), and only then are pairs flagged.

So **the flags after a block stand for the pairs that its sales may have improved, and for no
others** (`SwapQueue.mem_flagged_endBlock`).
-/

namespace PoolExchange

/-! ### The pools that are listed -/

namespace Store

/-- The asset and the status of every pool. -/
def shelf (s : Store) : OrderedMap Asset (Asset × PoolStatus) :=
  s.pools.mapValues fun p => (p.asset, p.status)

variable {s s' : Store}

/-- What is listed is seen on the shelf. -/
theorem listed_eq_of_shelf (h : s'.shelf = s.shelf) : s'.listed = s.listed := by
  have hlisted : ∀ s : Store, s.listed =
      (s.shelf.values.filter fun e => e.2 == .available && !e.1.isSynthetic).map Prod.fst := by
    intro s
    simp only [listed, shelf, OrderedMap.values, OrderedMap.mapValues, List.map_map,
      List.filter_map]
    rfl
  rw [hlisted, hlisted, h]

theorem ofStore_eq_of_shelf (h : s'.shelf = s.shelf) :
    PairIndex.ofStore s' = PairIndex.ofStore s := by
  rw [PairIndex.ofStore_eq, PairIndex.ofStore_eq, listed_eq_of_shelf h]

/-- Putting back a pool with other balances. -/
theorem shelf_setPool {p p' : Pool} (hp : s.pools.find? p.asset = some p)
    (hasset : p'.asset = p.asset) (hstatus : p'.status = p.status) :
    (s.setPool p').shelf = s.shelf := by
  refine OrderedMap.ext_find? fun k => ?_
  rw [shelf, shelf, setPool, OrderedMap.mapValues_insert, OrderedMap.find?_insert,
    OrderedMap.find?_mapValues]
  split
  · rename_i hk
    rw [hk, hasset, hp, Option.map_some, hstatus]
  · rfl

/-- Trading lists no pool and takes none off. -/
theorem Trades.shelf {config : Config} {legs : List Leg} (t : s.Trades config legs s')
    (hs : s.Keyed) : s'.shelf = s.shelf := by
  induction t with
  | nil => rfl
  | @cons s s' leg legs p u stored traded _ ih =>
      have hsame := Leg.trade_sameClaims traded
      rw [ih (hs.setPool _)]
      have hfind : s.pools.find? p.asset = some p := by
        rw [hs.asset_of_pool? stored]
        exact stored
      exact shelf_setPool hfind hsame.asset hsame.status

end Store

theorem Order.run_shelf {o : Order} {config : Config} {l l' : Ledger} {fill : Fill}
    (h : o.run config l = .ok (l', fill)) (hs : l.store.Keyed) :
    l'.store.shelf = l.store.shelf := by
  obtain ⟨route, s, -, ht, hstore, -⟩ := run_inv h
  rw [hstore, Store.shelf, settleSupply_pools]
  exact ht.shelf hs

theorem Payout.settled_shelf {s : Store} (hs : s.Keyed) (coin : Coin) (config : Config) :
    (settled s coin config).shelf = s.shelf := by
  rcases settled_cases s coin config with h | ⟨pool, hpool, -, -, -, -, h⟩ <;> rw [h]
  rw [keepFee]
  split
  · have hfind : s.pools.find? pool.asset = some pool := by
      rw [hs.asset_of_pool? hpool]
      exact hpool
    exact Store.shelf_setPool hfind rfl rfl
  all_goals rfl

/-- No effect of a block lists a pool or takes one off. -/
theorem Entry.Leads.shelf {config : Config} {e : Entry} {s : Store}
    (hl : e.Leads .pools config s) (hs : e.before.Keyed) : s.shelf = e.before.shelf := by
  cases hl with
  | order swap role o state l =>
      rcases Handler.pools_cases config o l with ⟨l', fill, hrun, hout⟩ | ⟨_, -, hout⟩ <;> rw [hout]
      exact Order.run_shelf hrun hs
  | refund swap s role coin reason => exact Payout.settled_shelf hs coin config
  | outbound swap s coin => exact Payout.settled_shelf hs coin config
  | share | progress | retain => rfl
  | drop swap s => rw [Store.shelf, (BlockRun.frame_dropSwap s swap).1]; rfl

namespace SwapQueue

/-- **A block trades with the pools that are listed before it, and lists the same after it.** -/
theorem ofStore_endBlock (q : SwapQueue) (height : Nat) {l : Ledger} (hs : l.store.Keyed) :
    PairIndex.ofStore (endBlock .pools q height () l).2.ledger.store = PairIndex.ofStore l.store := by
  have hblock : (endBlock .pools q height () l).2.ledger.store.Keyed ∧
      (endBlock .pools q height () l).2.ledger.store.shelf = l.store.shelf :=
    endBlock_induct .pools q height () l (P := fun s => s.Keyed ∧ s.shelf = l.store.shelf)
      ⟨hs, rfl⟩ (fun _ f h => ⟨h.1.setPairFlags f, h.2⟩)
      fun _ _ h hl => ⟨hl.keyed Handler.pools_keepsKeys h.1, (hl.shelf h.1).trans h.2⟩
  exact Store.ofStore_eq_of_shelf hblock.2

end SwapQueue

/-! ### What was sold -/

/-- The entry sells a part of its swap. -/
def Entry.sells (e : Entry) : Bool := e.part?.isSome

theorem Tally.parts_of_ne_nil {log : List Entry} :
    (Tally.of log).parts ≠ [] ↔ ∃ e ∈ log, e.sells = true := by
  rw [Tally.of, ne_eq, List.filterMap_eq_nil_iff]
  simp only [not_forall, exists_prop, Entry.sells, Option.isSome_iff_ne_none, ne_eq]

namespace Journal

variable (config : Config) (w : Swap) (j : Journal Unit)

/-- Storing the progress of a stream sells nothing. -/
theorem tallies_storeProgress (p : SwapStream) :
    ∃ t, Tallies w j (j.storeProgress config w p) t ∧ t.parts = [] := by
  rw [storeProgress]
  split
  · exact ⟨_, (tallies_settleStream config w j p).1, rfl⟩
  · exact ⟨_, tallies_note w j (.progress p) _, rfl⟩

theorem tallies_executeSingle :
    ∃ t, Tallies w j (j.executeSingle .pools config w).1 t ∧
      ((j.executeSingle .pools config w).2 = true ↔ t.parts ≠ []) := by
  rw [executeSingle]
  obtain ⟨j₁, ⟨fill, hcall, -, hquiet⟩ | ⟨e, hcall, hquiet⟩⟩ :=
    call_part config (BlockRun.orderOf w w.primaryAmount w.tradeTarget) w j <;> rw [hcall]
  · have hpaid := (quiet_releaseAffiliate config w j₁).trans
      (quiet_pay config w (j₁.releaseAffiliate .pools config w) fill.emit)
    refine ⟨_, (hquiet.trans hpaid).tallies.trans (tallies_note w _ .drop _), ?_⟩
    exact iff_of_true rfl (List.cons_ne_nil _ _)
  · dsimp only
    split
    · exact ⟨_, hquiet.tallies.trans (tallies_note w _ .retain _), by simp [Tally.of, Entry.part?]⟩
    · exact ⟨_, hquiet.tallies.trans (tallies_giveBack config w j₁ e).1, by simp⟩

theorem tallies_executeSlice (height : Nat) :
    ∃ t, Tallies w j (j.executeSlice .pools config height w).1 t ∧
      ((j.executeSlice .pools config height w).2 = true ↔ t.parts ≠ []) := by
  simp only [executeSlice]
  split
  · exact ⟨_, (tallies_settleStream config w j _).1, by simp⟩
  · rename_i size target _
    obtain ⟨j₁, ⟨fill, hcall, -, hquiet⟩ | ⟨e, hcall, hquiet⟩⟩ :=
      call_part config (BlockRun.orderOf w size target) w j <;> rw [hcall]
    · dsimp only
      split
      · obtain ⟨t, ht, -⟩ := tallies_storeProgress config w (j₁.releaseAffiliate .pools config w)
          (BlockRun.recorded (j.run.ledger.store.progress w) height size fill.emit.amount)
        have hshare := hquiet.trans (quiet_releaseAffiliate config w j₁)
        exact ⟨_, hshare.tallies.trans ht, iff_of_true rfl (List.cons_ne_nil _ _)⟩
      · obtain ⟨t, ht, -⟩ := tallies_storeProgress config w j₁
          (BlockRun.recorded (j.run.ledger.store.progress w) height size fill.emit.amount)
        exact ⟨_, hquiet.tallies.trans ht, iff_of_true rfl (List.cons_ne_nil _ _)⟩
    · dsimp only
      split
      · exact ⟨_, hquiet.tallies.trans (tallies_note w _ .retain _), by simp [Tally.of, Entry.part?]⟩
      · split
        · exact ⟨_, hquiet.tallies.trans (tallies_giveBack config w j₁ e).1, by simp⟩
        · obtain ⟨t, ht, hnone⟩ := tallies_storeProgress config w
            { j₁ with run.report.sliceFailures := j₁.run.report.sliceFailures + 1 }
            ((j.run.ledger.store.progress w).recordFailure height e.message)
          exact ⟨_, hquiet.tallies.trans ht, by simp [hnone]⟩

/-- **A swap that runs was filled exactly when a part of it was sold.** -/
theorem tallies_execute (height : Nat) :
    ∃ t, Tallies w j (j.execute .pools config height w).1 t ∧
      ((j.execute .pools config height w).2 = true ↔ t.parts ≠ []) := by
  rw [execute]
  split
  · exact tallies_executeSlice config w j height
  · exact tallies_executeSingle config w j

end Journal

/-! ### What is flagged -/

namespace SwapQueue

/-- The swaps that run add the pairs that their sales may have improved. -/
theorem flags_foldl_step (config : Config) (height : Nat) (index : PairIndex) (ws : List Swap)
    (acc : Journal Unit × List Pair) :
    ∃ es, (ws.foldl (Journal.step .pools config height index) acc).1.log = acc.1.log ++ es ∧
      ∀ p, p ∈ (ws.foldl (Journal.step .pools config height index) acc).2 ↔
        p ∈ acc.2 ∨ p ∈ index.pairs ∧
          ∃ e ∈ es, e.sells = true ∧ PairIndex.improves e.swap.pair p = true := by
  induction ws generalizing acc with
  | nil => exact ⟨[], (List.append_nil _).symm, by simp⟩
  | cons w ws ih =>
      obtain ⟨t, ⟨es, hlog, hfor, rfl⟩, hfilled⟩ := Journal.tallies_execute config w acc.1 height
      rw [Tally.parts_of_ne_nil] at hfilled
      have hstep : (Journal.step .pools config height index acc w).1.log = acc.1.log ++ es ∧
          ∀ p, p ∈ (Journal.step .pools config height index acc w).2 ↔ p ∈ acc.2 ∨
            p ∈ index.pairs ∧ ∃ e ∈ es, e.sells = true ∧
              PairIndex.improves e.swap.pair p = true := by
        simp only [Journal.step]
        split
        · rename_i hout
          obtain ⟨e, he, hsells⟩ := hfilled.mp hout
          refine ⟨hlog, fun p => ?_⟩
          rw [PairIndex.mem_flagMatching]
          refine or_congr_right (and_congr_right fun _ => ⟨fun h => ⟨e, he, hsells, ?_⟩, ?_⟩)
          · rw [hfor e he]
            exact h
          · rintro ⟨e, he, -, h⟩
            rw [← hfor e he]
            exact h
        · rename_i hout
          refine ⟨hlog, fun p => ⟨.inl, fun h => h.elim id ?_⟩⟩
          rintro ⟨-, e, he, hsells, -⟩
          exact absurd (hfilled.mpr ⟨e, he, hsells⟩) hout
      obtain ⟨es', hlog', hflags⟩ := ih (Journal.step .pools config height index acc w)
      refine ⟨es ++ es', ?_, fun p => ?_⟩
      · rw [List.foldl_cons, hlog', hstep.1, List.append_assoc]
      · rw [List.foldl_cons, hflags, hstep.2, or_assoc]
        simp only [List.mem_append, or_and_right, exists_or, and_or_left]

variable (q : SwapQueue) (height : Nat)

/-- **The flags after a block.** -/
theorem mem_flagged_endBlock {l : Ledger} (hs : l.store.Keyed)
    (hr : rests q.config height = false) {p : Pair} :
    p ∈ (endBlock .pools q height () l).2.ledger.store.flagged ↔
      p ∈ (PairIndex.ofStore l.store).pairs ∧
        ∃ e ∈ q.journal .pools height () l,
          e.sells = true ∧ PairIndex.improves e.swap.pair p = true := by
  obtain ⟨es, hlog, hflags⟩ := flags_foldl_step q.config height (PairIndex.ofStore l.store)
    (q.agenda l.store height) (⟨q.openBlock height () l, []⟩, [])
  have hindex := q.ofStore_endBlock height hs
  have hset : (endBlock .pools q height () l).2.ledger.store.pairFlags =
      (PairIndex.ofStore l.store).encode (q.runBlock .pools height () l).2 := by
    rw [store_endBlock .pools q height () l hr]
    rfl
  have hp := hflags p
  rw [Store.flagged, hindex, hset, PairIndex.decode?_encode_self, Option.getD_some,
    List.mem_filter, decide_eq_true_eq, journal, hr, if_neg Bool.false_ne_true]
  rw [runBlock, hlog, hp]
  simp only [List.not_mem_nil, false_or, List.nil_append]
  exact ⟨fun h => h.2, fun h => ⟨h.1, h⟩⟩

end SwapQueue

end PoolExchange
