import PoolExchange.Proofs.Queue.Precedence
import PoolExchange.Proofs.Queue.Settlement
import PoolExchange.Proofs.Queue.Walk
import PoolExchange.Queue.Script

/-!
# Drain — a queue of market swaps empties

A market swap that does not stream leaves the queue when it runs, whether it fills or is refunded
(`BlockRun.queue_execute`), so what a block takes out of the queue is what it runs
(`SwapQueue.queue_endBlock`).  All that is asked of the handler is that it does not touch the queue
itself (`Handler.KeepsQueue`).

Every such swap is a candidate of every block (`Store.OnlyMarkets.candidates_eq`).  The halving of
the backlog leaves at least one to run (`todoCount_pos`), so **each block that does not rest takes
out at least one swap and at most the largest batch, and the queue is empty after as many of them as
it held swaps** (`Desk.market_queue_drains`).

The number is that of the backlog as long as the walk finds nothing, as it does where the queue
alone has written the limit index (`Store.OnlyMarkets.discover_eq_nil`).  Any other entry under the
key of a market swap makes the swap a candidate twice, and the backlog counts both
(`Desk.stray_entry_slows_drain`).
-/

namespace PoolExchange

variable {σ : Type}

/-! ### One swap -/

/-- The handler leaves the queue alone, whatever else it does. -/
def Handler.KeepsQueue (h : Handler σ) : Prop :=
  ∀ (config : Config) (o : Order) (state : σ) (l : Ledger),
    (h.run config o state l).1.2.store.queue = l.store.queue

theorem Handler.KeepsBook.keepsQueue {h : Handler σ} (hb : h.KeepsBook) : h.KeepsQueue :=
  fun config o state l => (hb config o state l).queue

/-- Prepared outcomes leave the ledger alone, or trade with the pools. -/
theorem Handler.scripted_keepsQueue : Handler.scripted.KeepsQueue := by
  intro config o script l
  show (play (script.left.head?.getD .pools) config o l).1.store.queue = l.store.queue
  cases script.left.head?.getD .pools with
  | pools =>
    rw [play]
    split
    · rename_i hrun
      exact (Order.run_sameBook hrun).queue
    · rfl
  | emit amount => rfl
  | fail e => rfl

namespace BlockRun

variable {h : Handler σ} {config : Config} {w : Swap}

theorem queue_refund (r : BlockRun σ) (coin : Coin) (reason : String) :
    (r.refund w coin reason config).ledger.store.queue = r.ledger.store.queue := by
  rw [store_refund]
  exact (Payout.settled_sameBook _ coin config).queue

theorem queue_pay (r : BlockRun σ) (coin : Coin) :
    (r.pay w coin config).ledger.store.queue = r.ledger.store.queue := by
  rw [store_pay]
  exact (Payout.settled_sameBook _ coin config).queue

theorem queue_drop (r : BlockRun σ) :
    (r.drop w).ledger.store.queue = r.ledger.store.queue.erase w.key :=
  (frame_dropSwap r.ledger.store w).2.2.2.1

theorem queue_giveBack (r : BlockRun σ) (e : OrderError) :
    (r.giveBack w e config).ledger.store.queue = r.ledger.store.queue.erase w.key := by
  rw [giveBack, queue_drop]
  exact congrArg (fun m : OrderedMap SwapKey Swap => m.erase w.key)
    (queue_refund r w.source e.message)

theorem queue_releaseAffiliate (hh : h.KeepsQueue) (r : BlockRun σ) :
    (r.releaseAffiliate h config w).ledger.store.queue = r.ledger.store.queue := by
  rw [releaseAffiliate]
  split
  · rfl
  · rename_i affiliate _
    have hcall := hh config (affiliateOrder w affiliate ⟨w.source.asset, w.affiliateAmount⟩)
      r.handler r.ledger
    dsimp only
    split
    · rfl
    · split
      · rfl
      · split
        · rename_i r' fill hout
          obtain rfl := congrArg Prod.fst hout
          exact hcall
        · rename_i r' e hout
          obtain rfl := congrArg Prod.fst hout
          rw [queue_refund]
          exact hcall

/-- **A market swap that does not stream leaves the queue**, filled or refunded, and no other
does. -/
theorem queue_execute (hh : h.KeepsQueue) (height : Nat) (hlimit : w.isLimit = false)
    (hstream : w.isStreaming = false) (r : BlockRun σ) :
    (r.execute h config height w).1.ledger.store.queue = r.ledger.store.queue.erase w.key := by
  have hcall := hh config (orderOf w w.primaryAmount w.tradeTarget) r.handler r.ledger
  rw [execute, if_neg (by simp [hstream]), executeSingle]
  split
  · rename_i r' fill hout
    obtain rfl := congrArg Prod.fst hout
    rw [queue_drop, queue_pay, queue_releaseAffiliate hh]
    exact congrArg (fun m : OrderedMap SwapKey Swap => m.erase w.key) hcall
  · rename_i r' e hout
    obtain rfl := congrArg Prod.fst hout
    rw [hlimit, Bool.false_and, if_neg Bool.false_ne_true, queue_giveBack]
    exact congrArg (fun m : OrderedMap SwapKey Swap => m.erase w.key) hcall

/-- A run takes the swaps that run out of the queue. -/
theorem queue_foldl_step (hh : h.KeepsQueue) (height : Nat) (index : PairIndex) {ws : List Swap}
    (hws : ∀ w ∈ ws, w.isLimit = false ∧ w.isStreaming = false) (acc : BlockRun σ × List Pair) :
    (ws.foldl (step h config height index) acc).1.ledger.store.queue =
      acc.1.ledger.store.queue.eraseAll (ws.map Swap.key) := by
  induction ws generalizing acc with
  | nil => rfl
  | cons w ws ih =>
    obtain ⟨hlimit, hstream⟩ := hws w List.mem_cons_self
    have hstep : (step h config height index acc w).1.ledger.store.queue =
        acc.1.ledger.store.queue.erase w.key := by
      rw [← queue_execute hh height hlimit hstream acc.1, step]
      split <;> rfl
    rw [List.foldl_cons, ih fun v hv => hws v (List.mem_cons_of_mem _ hv), hstep, List.map_cons,
      OrderedMap.eraseAll_cons]

end BlockRun

/-! ### The batch -/

theorem todoCount_le (backlog minSwaps maxSwaps : Nat) :
    todoCount backlog minSwaps maxSwaps ≤ backlog := by
  rw [todoCount]
  split <;> omega

theorem todoCount_le_max (backlog minSwaps maxSwaps : Nat) :
    todoCount backlog minSwaps maxSwaps ≤ maxSwaps :=
  Nat.min_le_right _ _

/-- Halving a backlog above the smallest batch leaves something to run. -/
theorem todoCount_pos {backlog minSwaps maxSwaps : Nat} (hmin : 1 ≤ minSwaps)
    (hmax : minSwaps ≤ maxSwaps) (hbacklog : backlog ≠ 0) :
    1 ≤ todoCount backlog minSwaps maxSwaps := by
  rw [todoCount]
  split <;> omega

/-! ### A store of market swaps -/

/-- Every queued swap is a market swap that does not stream, under its own key. -/
structure Store.OnlyMarkets (s : Store) : Prop where
  key : ∀ k w, s.swap? k = some w → w.key = k
  isLimit : ∀ k w, s.swap? k = some w → w.isLimit = false
  isStreaming : ∀ k w, s.swap? k = some w → w.isStreaming = false

namespace Store.OnlyMarkets

variable {s s' : Store} (hm : s.OnlyMarkets)

include hm

theorem of_subset (hsub : ∀ k w, s'.swap? k = some w → s.swap? k = some w) : s'.OnlyMarkets :=
  ⟨fun k w h => hm.key k w (hsub k w h), fun k w h => hm.isLimit k w (hsub k w h),
    fun k w h => hm.isStreaming k w (hsub k w h)⟩

theorem setSwap {w : Swap} (hlimit : w.isLimit = false) (hstream : w.isStreaming = false) :
    (s.setSwap w).OnlyMarkets where
  key := OrderedMap.forall_insert hm.key rfl
  isLimit := OrderedMap.forall_insert hm.isLimit hlimit
  isStreaming := OrderedMap.forall_insert hm.isStreaming hstream

/-- All of them are candidates. -/
theorem markets_eq (height : Nat) (config : Config) :
    s.markets height config = s.queue.values.map Candidate.ofSwap := by
  rw [markets, List.filter_eq_self.mpr]
  intro w hw
  obtain ⟨k, hk⟩ := OrderedMap.mem_values_iff.mp hw
  simp [isReady, hm.isLimit k w hk, hm.isStreaming k w hk]

theorem map_key_values : s.queue.values.map Swap.key = s.queue.keys := by
  rw [OrderedMap.keys, ← OrderedMap.map_values_eq_entries hm.key, List.map_map]
  rfl

/-- The candidates are the queued swaps, and once more those that the walk finds. -/
theorem candidates_eq (q : SwapQueue) (height : Nat) :
    q.candidates s height = s.queue.values.map Candidate.ofSwap ++
      s.flagged.flatMap fun pair => s.discover pair height q.config := by
  rw [← hm.markets_eq height q.config]
  refine SwapQueue.addFresh_eq_self q.fresh fun k w hw _ => ?_
  refine ⟨.ofSwap w, List.mem_append_left _ ?_, hm.key k w hw⟩
  rw [hm.markets_eq]
  exact List.mem_map_of_mem (OrderedMap.mem_values_of_find? hw)

/-- In a store whose limit index is filed as the queue files it, the walk finds none of them. -/
theorem discover_eq_nil (hf : s.Filed) (pair : Pair) (height : Nat) (config : Config) :
    s.discover pair height config = [] := by
  refine List.eq_nil_iff_forall_not_mem.mpr fun c hc => ?_
  obtain ⟨b, hb, hin⟩ := List.mem_flatMap.mp hc
  obtain ⟨w, hw, rfl⟩ := List.mem_map.mp hin
  obtain ⟨k, -, hadmit⟩ := List.mem_filterMap.mp hw
  have hqueued : s.swap? k = some w := (Option.filter_eq_some_iff.mp hadmit).1
  have hown : s.swap? w.key = some w := hm.key k w hqueued ▸ hqueued
  obtain ⟨hlimit, -⟩ := (hf.mem_discover_iff hown).mp ⟨_, hc, rfl⟩
  rw [hm.isLimit k w hqueued] at hlimit
  cases hlimit

end Store.OnlyMarkets

/-! ### One block -/

namespace SwapQueue

variable {h : Handler σ} {s : Store} {l : Ledger} (q : SwapQueue) (height : Nat)

theorem length_agenda (s : Store) : (q.agenda s height).length = q.capacity s height := by
  rw [agenda, schedule, List.length_map, List.length_take, Candidate.sorted,
    List.length_mergeSort, List.length_map]
  exact Nat.min_eq_left (todoCount_le _ _ _)

theorem queued_of_mem_agenda (hm : s.OnlyMarkets) {w : Swap} (hw : w ∈ q.agenda s height) :
    s.swap? w.key = some w := by
  obtain ⟨cs, hsub, hperm⟩ := q.agenda_sublist height s
  obtain ⟨c, hc, rfl⟩ := List.mem_map.mp (hperm.subset (hsub.subset hw))
  obtain ⟨k, hk⟩ := q.queued_candidates height c hc
  rw [hm.key k _ hk]
  exact hk

/-- While the walk finds nothing, no swap runs twice. -/
theorem nodup_agenda_of_idle (hm : s.OnlyMarkets)
    (hidle : ∀ pair ∈ s.flagged, s.discover pair height q.config = []) :
    ((q.agenda s height).map Swap.key).Nodup := by
  obtain ⟨cs, hsub, hperm⟩ := q.agenda_sublist height s
  refine (hsub.map Swap.key).nodup ((hperm.map Swap.key).nodup_iff.mpr ?_)
  rw [hm.candidates_eq, List.flatMap_eq_nil_iff.mpr hidle, List.append_nil, List.map_map,
    List.map_map]
  show (s.queue.values.map Swap.key).Nodup
  rw [hm.map_key_values]
  exact s.queue.nodup_keys

/-- **What a block takes out of a queue of market swaps** is what it runs. -/
theorem queue_endBlock (hh : h.KeepsQueue) (state : σ) (hm : l.store.OnlyMarkets)
    (hr : rests q.config height = false) :
    (endBlock h q height state l).2.ledger.store.queue =
      l.store.queue.eraseAll ((q.agenda l.store height).map Swap.key) := by
  have hrun : (q.runBlock h height state l).1.run =
      ((q.agenda l.store height).foldl
        (BlockRun.step h q.config height (PairIndex.ofStore l.store))
        (q.openBlock height state l, [])).1 :=
    congrArg Prod.fst (run_foldl_step h height q.config (PairIndex.ofStore l.store)
      (q.agenda l.store height) (⟨q.openBlock height state l, []⟩, []))
  rw [store_endBlock h q height state l hr]
  show (q.runBlock h height state l).1.run.ledger.store.queue = _
  rw [hrun]
  refine BlockRun.queue_foldl_step hh height _ (fun w hw => ?_) _
  have hqueued := q.queued_of_mem_agenda height hm hw
  exact ⟨hm.isLimit _ w hqueued, hm.isStreaming _ w hqueued⟩

/-- No block puts a swap into the queue. -/
theorem queued_of_endBlock (hh : h.KeepsQueue) (state : σ) (hm : l.store.OnlyMarkets) {k : SwapKey}
    {w : Swap} (hw : (endBlock h q height state l).2.ledger.store.swap? k = some w) :
    l.store.swap? k = some w := by
  cases hr : rests q.config height with
  | true => rwa [store_endBlock_of_rests h q height state l hr] at hw
  | false =>
    rw [Store.swap?, q.queue_endBlock height hh state hm hr, OrderedMap.find?_eraseAll] at hw
    split at hw
    · cases hw
    · exact hw

/-- **One block** that does not rest, of a queue of market swaps: if there are any it takes out at
least one, at most the largest batch, and as many as the backlog calls for while the walk finds
none of them. -/
theorem size_endBlock (hh : h.KeepsQueue) (state : σ) (hm : l.store.OnlyMarkets)
    (hmin : 1 ≤ q.config.queue.minSwaps) (hmax : q.config.queue.minSwaps ≤ q.config.queue.maxSwaps)
    (hr : rests q.config height = false) :
    ∃ removed, l.store.queue.size =
        (endBlock h q height state l).2.ledger.store.queue.size + removed ∧
      removed ≤ q.config.queue.maxSwaps ∧
      (l.store.queue.size ≠ 0 → 1 ≤ removed) ∧
      ((∀ pair ∈ l.store.flagged, l.store.discover pair height q.config = []) →
        removed =
          todoCount l.store.queue.size q.config.queue.minSwaps q.config.queue.maxSwaps) := by
  rw [q.queue_endBlock height hh state hm hr]
  set keys := (q.agenda l.store height).map Swap.key with hkeys
  have hlength : keys.length = q.capacity l.store height := by
    rw [hkeys, List.length_map, length_agenda]
  have hkey : ∀ k ∈ keys, k ∈ l.store.queue.keys := fun k hk => by
    obtain ⟨w, hw, rfl⟩ := List.mem_map.mp hk
    exact OrderedMap.mem_keys_of_find? (q.queued_of_mem_agenda height hm hw)
  have hcandidates := congrArg List.length (hm.candidates_eq q height)
  rw [List.length_append, List.length_map, OrderedMap.values, List.length_map] at hcandidates
  refine ⟨_, l.store.queue.size_eraseAll keys, ?_, fun hne => ?_, fun hidle => ?_⟩
  · refine (l.store.queue.length_found_le keys).trans ?_
    rw [hlength]
    exact todoCount_le_max _ _ _
  · -- something runs, and what runs is queued
    have hpos : 1 ≤ keys.length := by
      rw [hlength]
      refine todoCount_pos hmin hmax ?_
      rw [hcandidates]
      exact fun h => hne (Nat.add_eq_zero_iff.mp h).1
    obtain ⟨k, hk⟩ := List.exists_mem_of_length_pos hpos
    exact List.length_pos_of_mem (OrderedMap.mem_found_iff.mpr ⟨hkey k hk, hk⟩)
  · rw [OrderedMap.length_found_of_nodup (q.nodup_agenda_of_idle height hm hidle) hkey, hlength,
      capacity, hcandidates, List.flatMap_eq_nil_iff.mpr hidle]
    rfl

end SwapQueue

/-! ### Block after block -/

namespace Desk

/-- The desk after blocks, with nothing in between. -/
def blocks (h : Handler σ) (d : Desk σ) (heights : List Nat) : Desk σ :=
  d.run h (heights.map .endBlock)

/-- The number of swaps in the queue. -/
def backlog (d : Desk σ) : Nat := d.ledger.store.queue.size

variable {h : Handler σ} {d : Desk σ}

theorem config_serve_endBlock (h : Handler σ) (d : Desk σ) (height : Nat) :
    (d.serve h (.endBlock height)).queue.config = d.queue.config := by
  show (SwapQueue.endBlock h d.queue height d.handler d.ledger).1.config = _
  rw [SwapQueue.endBlock]
  split <;> rfl

theorem store_serve_of_rests {height : Nat}
    (hr : SwapQueue.rests d.queue.config height = true) :
    (d.serve h (.endBlock height)).ledger.store = d.ledger.store :=
  SwapQueue.store_endBlock_of_rests h d.queue height d.handler d.ledger hr

theorem onlyMarkets_serve (hh : h.KeepsQueue) (hm : d.ledger.store.OnlyMarkets) (height : Nat) :
    (d.serve h (.endBlock height)).ledger.store.OnlyMarkets :=
  hm.of_subset fun _ _ => d.queue.queued_of_endBlock height hh d.handler hm

theorem onlyMarkets_blocks (hh : h.KeepsQueue) (hm : d.ledger.store.OnlyMarkets)
    (heights : List Nat) :
    (d.blocks h heights).queue.config = d.queue.config ∧
      (d.blocks h heights).ledger.store.OnlyMarkets := by
  induction heights generalizing d with
  | nil => exact ⟨rfl, hm⟩
  | cons height heights ih =>
    obtain ⟨hconfig, hstill⟩ := ih (onlyMarkets_serve hh hm height)
    exact ⟨hconfig.trans (config_serve_endBlock h d height), hstill⟩

/-- The backlog is used up by as many blocks that do not rest. -/
theorem backlog_blocks_eq_zero (hh : h.KeepsQueue) (hm : d.ledger.store.OnlyMarkets)
    (hmin : 1 ≤ d.queue.config.queue.minSwaps)
    (hmax : d.queue.config.queue.minSwaps ≤ d.queue.config.queue.maxSwaps) {heights : List Nat}
    (hmany : d.backlog ≤
      (heights.filter fun height => !SwapQueue.rests d.queue.config height).length) :
    (d.blocks h heights).backlog = 0 := by
  induction heights generalizing d with
  | nil => exact Nat.le_zero.mp hmany
  | cons height heights ih =>
    have hconfig := config_serve_endBlock h d height
    refine ih (onlyMarkets_serve hh hm height) (hconfig ▸ hmin) (hconfig ▸ hmax) ?_
    rw [hconfig]
    cases hr : SwapQueue.rests d.queue.config height with
    | true =>
      rw [List.filter_cons_of_neg (by simp [hr])] at hmany
      rw [backlog, store_serve_of_rests hr]
      exact hmany
    | false =>
      rw [List.filter_cons_of_pos (by simp [hr]), List.length_cons] at hmany
      obtain ⟨removed, hsize, -, hpos, -⟩ :=
        d.queue.size_endBlock height hh d.handler hm hmin hmax hr
      have hless : d.backlog = (d.serve h (.endBlock height)).backlog + removed := hsize
      have hsome : d.backlog ≠ 0 → 1 ≤ removed := hpos
      omega

/-- **A queue of market swaps drains.**  Let none of them stream, and let the batches be positive.
Whatever the handler answers, as long as it leaves the queue alone, and whatever blocks there have
been: a block that rests leaves the queue as it is, any other only takes swaps out, at least one
while there are any and at most the largest batch, and as many as the backlog calls for if the walk
over the flagged pairs finds none of them.  After as many blocks that do not rest as there were
swaps the queue is empty. -/
theorem market_queue_drains (h : Handler σ) (d : Desk σ) (hh : h.KeepsQueue)
    (hm : d.ledger.store.OnlyMarkets) (hmin : 1 ≤ d.queue.config.queue.minSwaps)
    (hmax : d.queue.config.queue.minSwaps ≤ d.queue.config.queue.maxSwaps) :
    (∀ (heights : List Nat) (height : Nat),
      let before := d.blocks h heights
      let after := before.serve h (.endBlock height)
      (SwapQueue.rests d.queue.config height = true →
        after.ledger.store.queue = before.ledger.store.queue) ∧
      (SwapQueue.rests d.queue.config height = false →
        (∀ k w, after.ledger.store.swap? k = some w → before.ledger.store.swap? k = some w) ∧
        ∃ removed, before.backlog = after.backlog + removed ∧
          removed ≤ d.queue.config.queue.maxSwaps ∧ (before.backlog ≠ 0 → 1 ≤ removed) ∧
          ((∀ pair ∈ before.ledger.store.flagged,
              before.ledger.store.discover pair height d.queue.config = []) →
            removed = todoCount before.backlog d.queue.config.queue.minSwaps
              d.queue.config.queue.maxSwaps))) ∧
    ∀ heights : List Nat,
      d.backlog ≤ (heights.filter fun height => !SwapQueue.rests d.queue.config height).length →
      (d.blocks h heights).backlog = 0 := by
  refine ⟨fun heights height => ?_, fun heights => backlog_blocks_eq_zero hh hm hmin hmax⟩
  intro before after
  obtain ⟨hconfig, hmarkets⟩ := onlyMarkets_blocks hh hm heights
  rw [← hconfig] at hmin hmax ⊢
  exact ⟨fun hr => congrArg Store.queue (store_serve_of_rests hr), fun hr =>
    ⟨fun _ _ => before.queue.queued_of_endBlock height hh before.handler hmarkets,
      before.queue.size_endBlock height hh before.handler hmarkets hmin hmax hr⟩⟩

/-- A purchase of bitcoin. -/
def btcPurchase (tx : String) : Swap :=
  ⟨⟨tx⟩, 0, ⟨"bob"⟩, ⟨.native, 1000000000⟩, ⟨"BTC", "BTC", .layer1⟩, ⟨"bob"⟩, 0, .market, 0, 0,
    none, 1⟩

theorem onlyMarkets_btcStore : SwapQueue.btcStore.OnlyMarkets :=
  ⟨fun _ _ h => (nomatch h), fun _ _ h => (nomatch h), fun _ _ h => (nomatch h)⟩

/-- Three purchases and batches of one or two.  The handler refuses the first order, makes up an
emission for the second and trades with the pools for the third. -/
def btcPurchases : Desk Script where
  queue := ⟨{ queue := { minSwaps := 1, maxSwaps := 2 } }, []⟩
  handler := { left := [.fail (.pool .zeroEmission), .emit 5000000, .pools] }
  ledger := ⟨((SwapQueue.btcStore.setSwap (btcPurchase "02")).setSwap (btcPurchase "03")).setSwap
    (btcPurchase "04"), []⟩

/-- Half of three is one, so the first block leaves two; three blocks leave none. -/
theorem market_queue_drains_purchases :
    btcPurchases.backlog = 3 ∧ (btcPurchases.serve .scripted (.endBlock 1)).backlog = 2 ∧
      (btcPurchases.blocks .scripted [1, 2, 3]).backlog = 0 := by
  have hmarkets : btcPurchases.ledger.store.OnlyMarkets :=
    ((onlyMarkets_btcStore.setSwap rfl rfl).setSwap rfl rfl).setSwap rfl rfl
  obtain ⟨hblock, hall⟩ := market_queue_drains .scripted btcPurchases Handler.scripted_keepsQueue
    hmarkets (by decide) (by decide)
  obtain ⟨-, removed, hsize, -, -, hexact⟩ := (hblock [] 1).2 (by decide)
  obtain rfl : removed = 1 := hexact (by decide)
  exact ⟨by decide, (Nat.succ.inj hsize).symm, hall [1, 2, 3] (by decide)⟩

/-- Two purchases, both of which fit into a batch, and the pair they trade is flagged.  An entry of
the limit index stands under the key of the second. -/
def strayEntry : Desk Unit where
  queue := ⟨{ queue := { minSwaps := 2, maxSwaps := 2 } }, []⟩
  handler := ()
  ledger :=
    ⟨(((SwapQueue.btcStore.setSwap (btcPurchase "02")).setSwap (btcPurchase "03")).insertLimit
      ⟨(btcPurchase "03").pair, ⟨200000000⟩⟩ (btcPurchase "03").key).setPairFlags [true, false], []⟩

/-- The second is a candidate twice.  Three candidates are more than fit, so half of them run, and
the block takes out one swap where its two swaps call for two. -/
theorem stray_entry_slows_drain :
    Handler.pools.KeepsQueue ∧ strayEntry.ledger.store.OnlyMarkets ∧
      SwapQueue.rests strayEntry.queue.config 1 = false ∧ strayEntry.backlog = 2 ∧
      todoCount strayEntry.backlog strayEntry.queue.config.queue.minSwaps
        strayEntry.queue.config.queue.maxSwaps = 2 ∧
      (strayEntry.serve .pools (.endBlock 1)).backlog = 1 := by
  have hkeeps : Handler.pools.KeepsQueue := Handler.pools_keepsBook.keepsQueue
  have hmarkets : strayEntry.ledger.store.OnlyMarkets :=
    ((onlyMarkets_btcStore.setSwap rfl rfl).setSwap rfl rfl).of_subset fun _ _ h => h
  have hagenda : strayEntry.queue.agenda strayEntry.ledger.store 1 = [btcPurchase "02"] := by
    rw [SwapQueue.agenda_of_pairwise _ _ (by decide +kernel)]
    decide +kernel
  have hqueue := strayEntry.queue.queue_endBlock 1 hkeeps strayEntry.handler hmarkets (by decide)
  refine ⟨hkeeps, hmarkets, by decide, by decide, by decide, ?_⟩
  show OrderedMap.size (Store.queue (Ledger.store (BlockRun.ledger _))) = 1
  rw [hqueue, hagenda]
  decide +kernel

end Desk

end PoolExchange
