import PoolExchange.Proofs.Queue.Outcome
import PoolExchange.Proofs.Queue.Precedence

/-!
# Queue — blocks do not see the order of arrival

The buckets of the limit index list their swaps in the order of arrival.  Two stores that agree
but for that order (`Store.SameButArrival`) hold the same *crowds*: the index with each bucket
taken as a multiset.  What a walk finds is, as a multiset, determined by the crowds, so two such
stores offer the same candidates in another order, and a block brings them into the same order
before it runs any.  Nothing that a swap does on its run looks at the index, and what it changes
there changes the crowds alike.  So a block has the same report and the same events on both, and
leaves two such stores behind (`SwapQueue.alike_endBlock`).
-/

namespace PoolExchange

namespace Store

/-! ### Crowds -/

/-- The limit index without the order of arrival. -/
def crowds (s : Store) : OrderedMap LimitKey (Multiset SwapKey) := s.limits.mapValues .ofList

/-- Two stores agree, but for the order of the swaps inside the buckets of the limit index. -/
structure SameButArrival (s s' : Store) : Prop where
  pools : s'.pools = s.pools
  providers : s'.providers = s.providers
  supplies : s'.supplies = s.supplies
  queue : s'.queue = s.queue
  crowds : s'.crowds = s.crowds
  pairFlags : s'.pairFlags = s.pairFlags
  streams : s'.streams = s.streams

/-- The crowd of a bucket. -/
def crowd (s : Store) (b : LimitKey) : Multiset SwapKey := (s.crowds.find? b).getD 0

theorem coe_bucket (s : Store) (b : LimitKey) : (s.bucket b : Multiset SwapKey) = s.crowd b := by
  rw [crowd, crowds, OrderedMap.find?_mapValues, bucket]
  cases s.limits.find? b <;> rfl

theorem crowds_insertLimit (s : Store) (b : LimitKey) (k : SwapKey) :
    (s.insertLimit b k).crowds = s.crowds.insert b ((s.crowd b).ndinsert k) := by
  rw [insertLimit, crowds, OrderedMap.mapValues_insert, ← coe_bucket, Multiset.coe_ndinsert]
  refine congrArg (OrderedMap.insert _ b) (Multiset.coe_eq_coe.mpr ?_)
  show (if k ∈ s.bucket b then _ else _ : List SwapKey).Perm (List.insert k (s.bucket b))
  by_cases hk : k ∈ s.bucket b
  · rw [if_pos hk, List.insert_of_mem hk]
  · rw [if_neg hk, List.insert_of_not_mem hk]
    exact List.perm_append_singleton k (s.bucket b)

theorem crowds_removeLimit (s : Store) (b : LimitKey) (k : SwapKey) :
    (s.removeLimit b k).crowds =
      if (s.crowds.find? b).isNone then s.crowds
      else if (s.crowd b).filter (· ≠ k) = 0 then s.crowds.erase b
      else s.crowds.insert b ((s.crowd b).filter (· ≠ k)) := by
  have hfind : s.crowds.find? b = (s.limits.find? b).map .ofList := OrderedMap.find?_mapValues ..
  rw [removeLimit]
  cases hb : s.limits.find? b with
  | none => rw [hfind, hb]; rfl
  | some swaps =>
      have hcrowd : s.crowd b = (swaps : Multiset SwapKey) := by rw [crowd, hfind, hb]; rfl
      have hsome : (s.crowds.find? b).isNone = false := by rw [hfind, hb]; rfl
      rw [hcrowd, hsome, if_neg Bool.false_ne_true, Multiset.filter_coe]
      by_cases he : swaps.filter (· ≠ k) = []
      · simp only [he, List.isEmpty_nil, if_true, Multiset.coe_nil]
        exact OrderedMap.mapValues_erase ..
      · have hne : ¬ ((swaps.filter (· ≠ k) : List SwapKey) : Multiset SwapKey) = 0 := by
          rwa [Multiset.coe_eq_zero]
        simp only [List.isEmpty_iff, he, hne, if_false]
        exact OrderedMap.mapValues_insert ..

/-- Two swaps join a crowd in either order. -/
theorem ndinsert_comm {k k' : SwapKey} (hne : k ≠ k') (c : Multiset SwapKey) :
    (c.ndinsert k).ndinsert k' = (c.ndinsert k').ndinsert k := by
  by_cases hk : k ∈ c <;> by_cases hk' : k' ∈ c
  · rw [Multiset.ndinsert_of_mem hk, Multiset.ndinsert_of_mem hk', Multiset.ndinsert_of_mem hk]
  · rw [Multiset.ndinsert_of_mem hk, Multiset.ndinsert_of_notMem hk',
      Multiset.ndinsert_of_mem (Multiset.mem_cons_of_mem hk)]
  · rw [Multiset.ndinsert_of_mem hk', Multiset.ndinsert_of_notMem hk,
      Multiset.ndinsert_of_mem (Multiset.mem_cons_of_mem hk')]
  · have hk₁ : k ∉ k' ::ₘ c := by simp [hne, hk]
    have hk₂ : k' ∉ k ::ₘ c := by simp [hne.symm, hk']
    rw [Multiset.ndinsert_of_notMem hk, Multiset.ndinsert_of_notMem hk',
      Multiset.ndinsert_of_notMem hk₁, Multiset.ndinsert_of_notMem hk₂, Multiset.cons_swap]

/-- A limit swap joins the crowd of its bucket. -/
theorem find?_crowds_enter (s : Store) (w : Swap) (b : LimitKey) :
    (SwapQueue.enter s w).crowds.find? b =
      if w.isLimit = true ∧ b = .ofSwap w then some ((s.crowd b).ndinsert w.key)
      else s.crowds.find? b := by
  rw [SwapQueue.enter]
  cases hl : w.isLimit with
  | false =>
      rw [if_neg fun h : _ ∧ _ => Bool.false_ne_true h.1]
      cases w.isStreaming <;> rfl
  | true =>
      have hinsert : (s.insertLimit (.ofSwap w) w.key).crowds.find? b =
          if b = .ofSwap w then some ((s.crowd (.ofSwap w)).ndinsert w.key)
          else s.crowds.find? b := by
        rw [crowds_insertLimit, OrderedMap.find?_insert]
      simp only [if_true, true_and]
      refine Eq.trans ?_ (hinsert.trans ?_)
      · cases w.isStreaming <;> rfl
      · by_cases hb : b = .ofSwap w
        · rw [if_pos hb, if_pos hb, hb]
        · rw [if_neg hb, if_neg hb]

theorem crowd_enter (s : Store) (w : Swap) (b : LimitKey) :
    (SwapQueue.enter s w).crowd b =
      if w.isLimit = true ∧ b = .ofSwap w then (s.crowd b).ndinsert w.key else s.crowd b := by
  rw [crowd, find?_crowds_enter]
  split <;> rfl

theorem pairFlags_enter (s : Store) (w : Swap) :
    (SwapQueue.enter s w).pairFlags = s.pairFlags := by
  rw [SwapQueue.enter]
  cases w.isStreaming <;> cases w.isLimit <;> rfl

theorem crowds_dropSwap (s : Store) (w : Swap) :
    (BlockRun.dropSwap s w).crowds =
      if w.isLimit then
        if (s.crowds.find? (.ofSwap w)).isNone then s.crowds
        else if (s.crowd (.ofSwap w)).filter (· ≠ w.key) = 0 then s.crowds.erase (.ofSwap w)
        else s.crowds.insert (.ofSwap w) ((s.crowd (.ofSwap w)).filter (· ≠ w.key))
      else s.crowds := by
  rw [BlockRun.dropSwap]
  cases w.isLimit with
  | false => cases w.isStreaming <;> rfl
  | true =>
      simp only [if_true]
      refine Eq.trans ?_ (crowds_removeLimit (s.removeSwap w.key) (.ofSwap w) w.key)
      cases w.isStreaming <;> rfl

theorem pairFlags_dropSwap (s : Store) (w : Swap) :
    (BlockRun.dropSwap s w).pairFlags = s.pairFlags := by
  have hremove : ∀ (s : Store) b k, (s.removeLimit b k).pairFlags = s.pairFlags := by
    intro s b k
    rw [removeLimit]
    split <;> rfl
  rw [BlockRun.dropSwap]
  cases w.isStreaming <;> cases w.isLimit <;> simp only [if_true, Bool.false_eq_true, if_false]
  · rfl
  · exact hremove _ _ _
  · rfl
  · exact hremove _ _ _

namespace SameButArrival

variable {s s' s'' : Store}

theorem refl (s : Store) : s.SameButArrival s := ⟨rfl, rfl, rfl, rfl, rfl, rfl, rfl⟩

theorem trans (h : s.SameButArrival s') (h' : s'.SameButArrival s'') : s.SameButArrival s'' where
  pools := h'.pools.trans h.pools
  providers := h'.providers.trans h.providers
  supplies := h'.supplies.trans h.supplies
  queue := h'.queue.trans h.queue
  crowds := h'.crowds.trans h.crowds
  pairFlags := h'.pairFlags.trans h.pairFlags
  streams := h'.streams.trans h.streams

theorem source (h : s.SameButArrival s') : s'.source = s.source := by
  have hpool : s'.pool? = s.pool? := funext fun a => by rw [pool?, pool?, h.pools]
  have hsupply : s'.supply = s.supply := funext fun a => by rw [supply, supply, h.supplies]
  rw [Store.source, Store.source, hpool, hsupply]

theorem swap? (h : s.SameButArrival s') (k : SwapKey) : s'.swap? k = s.swap? k := by
  rw [Store.swap?, Store.swap?, h.queue]

theorem isReady (h : s.SameButArrival s') (w : Swap) (height : Nat) (config : Config) :
    s'.isReady w height config = s.isReady w height config := by
  rw [Store.isReady, Store.isReady, progress, progress, stream?, stream?, h.streams]

theorem crowd (h : s.SameButArrival s') (b : LimitKey) : s'.crowd b = s.crowd b := by
  rw [Store.crowd, Store.crowd, h.crowds]

theorem enter (h : s.SameButArrival s') (w : Swap) :
    (SwapQueue.enter s w).SameButArrival (SwapQueue.enter s' w) := by
  obtain ⟨hp, hv, hn, hq, ht⟩ := SwapQueue.frame_enter s w
  obtain ⟨hp', hv', hn', hq', ht'⟩ := SwapQueue.frame_enter s' w
  refine ⟨?_, ?_, ?_, ?_, OrderedMap.ext_find? fun b => ?_, ?_, ?_⟩
  · rw [hp, hp', h.pools]
  · rw [hv, hv', h.providers]
  · rw [hn, hn', h.supplies]
  · rw [hq, hq', h.queue]
  · rw [find?_crowds_enter, find?_crowds_enter, h.crowds, h.crowd]
  · rw [pairFlags_enter, pairFlags_enter, h.pairFlags]
  · rw [ht, ht', h.streams]

/-- Two swaps of different transactions enter in either order. -/
theorem enter_comm (s : Store) {v w : Swap} (hne : v.tx ≠ w.tx) :
    (SwapQueue.enter (SwapQueue.enter s v) w).SameButArrival
      (SwapQueue.enter (SwapQueue.enter s w) v) := by
  have hkey : v.key ≠ w.key := fun he => hne (congrArg SwapKey.tx he)
  obtain ⟨hp, hv, hn, hq, ht⟩ := SwapQueue.frame_enter s v
  obtain ⟨hp', hv', hn', hq', ht'⟩ := SwapQueue.frame_enter s w
  obtain ⟨hpw, hvw, hnw, hqw, htw⟩ := SwapQueue.frame_enter (SwapQueue.enter s v) w
  obtain ⟨hpv, hvv, hnv, hqv, htv⟩ := SwapQueue.frame_enter (SwapQueue.enter s w) v
  refine ⟨?_, ?_, ?_, ?_, OrderedMap.ext_find? fun b => ?_, ?_, ?_⟩
  · rw [hpv, hp', hpw, hp]
  · rw [hvv, hv', hvw, hv]
  · rw [hnv, hn', hnw, hn]
  · rw [hqv, hq', hqw, hq, OrderedMap.insert_comm _ hkey]
  · simp only [find?_crowds_enter, crowd_enter]
    by_cases hbv : v.isLimit = true ∧ b = .ofSwap v
    · by_cases hbw : w.isLimit = true ∧ b = .ofSwap w
      · rw [if_pos hbv, if_pos hbw, if_pos hbw, if_pos hbv, ndinsert_comm hkey]
      · rw [if_pos hbv, if_neg hbw, if_neg hbw, if_pos hbv]
    · by_cases hbw : w.isLimit = true ∧ b = .ofSwap w
      · rw [if_neg hbv, if_pos hbw, if_pos hbw, if_neg hbv]
      · rw [if_neg hbv, if_neg hbw, if_neg hbw, if_neg hbv]
  · rw [pairFlags_enter, pairFlags_enter, pairFlags_enter, pairFlags_enter]
  · rw [htv, ht', htw, ht]
    cases v.isStreaming <;> cases w.isStreaming <;>
      simp only [if_true, Bool.false_eq_true, if_false]
    exact (OrderedMap.insert_comm _ hne _ _).symm

theorem dropSwap (h : s.SameButArrival s') (w : Swap) :
    (BlockRun.dropSwap s w).SameButArrival (BlockRun.dropSwap s' w) := by
  obtain ⟨hp, hv, hn, hq, ht⟩ := BlockRun.frame_dropSwap s w
  obtain ⟨hp', hv', hn', hq', ht'⟩ := BlockRun.frame_dropSwap s' w
  refine ⟨?_, ?_, ?_, ?_, ?_, ?_, ?_⟩
  · rw [hp, hp', h.pools]
  · rw [hv, hv', h.providers]
  · rw [hn, hn', h.supplies]
  · rw [hq, hq', h.queue]
  · rw [crowds_dropSwap, crowds_dropSwap, h.crowds, h.crowd]
  · rw [pairFlags_dropSwap, pairFlags_dropSwap, h.pairFlags]
  · rw [ht, ht', h.streams]

end SameButArrival

/-! ### Candidates -/

/-- What a walk finds in any order is determined by the crowds. -/
theorem coe_discover (s : Store) (pair : Pair) (height : Nat) (config : Config) :
    (s.discover pair height config : Multiset Candidate) =
      (((s.crowds.entries.filter fun e =>
          e.1.pair = pair && e.1.ratio.value ≤ Ratio.maxValue).takeWhile fun e =>
        s.source.clears pair e.1.ratio).map fun e =>
          (e.2.filterMap (s.admit? height config)).map .ofSwap).sum := by
  have hbuckets : ∀ bs : List (LimitKey × List SwapKey),
      ((bs.flatMap fun b => (b.2.filterMap (s.admit? height config)).map Candidate.ofSwap :
        List Candidate) : Multiset Candidate) =
      (bs.map fun b => ((b.2 : Multiset SwapKey).filterMap (s.admit? height config)).map
        Candidate.ofSwap).sum := by
    intro bs
    induction bs with
    | nil => rfl
    | cons b bs ih =>
        rw [List.flatMap_cons, List.map_cons, List.sum_cons, ← Multiset.coe_add, ih]
        rfl
  rw [discover, hbuckets, bucketsOf]
  show _ = ((((s.limits.entries.map _).filter _).takeWhile _).map _).sum
  rw [List.filter_map, List.takeWhile_map, List.map_map]
  rfl

theorem SameButArrival.perm_fetch {s s' : Store} (h : s.SameButArrival s') (flagged : List Pair)
    (height : Nat) (config : Config) :
    (s'.fetch flagged height config).Perm (s.fetch flagged height config) := by
  have hadmit : s'.admit? height config = s.admit? height config := by
    funext k
    simp only [admit?, h.swap?, h.source, h.isReady _ height config]
  have hdiscover : ∀ pair, (s'.discover pair height config).Perm
      (s.discover pair height config) := by
    intro pair
    rw [← Multiset.coe_eq_coe, coe_discover, coe_discover, h.crowds, h.source, hadmit]
  have hmarkets : s'.markets height config = s.markets height config := by
    simp only [markets, h.queue, h.isReady _ height config]
  rw [fetch, fetch, hmarkets]
  exact ((List.Perm.refl flagged).flatMap fun pair _ => hdiscover pair).append_left _

end Store

namespace SwapQueue

/-! ### Schedule -/

variable {s s' : Store} {height : Nat} {config : Config}

/-- Adding fresh swaps to the same candidates in another order. -/
theorem perm_addFresh (fresh : List SwapKey) {cs cs' : List Candidate} (h : cs'.Perm cs) :
    (addFresh s height config fresh cs').Perm (addFresh s height config fresh cs) := by
  induction fresh generalizing cs cs' with
  | nil => exact h
  | cons k fresh ih =>
      rw [addFresh_cons, addFresh_cons s height config k fresh cs]
      refine ih ?_
      have hmem : k ∈ cs'.map (fun c => c.swap.key) ↔ k ∈ cs.map fun c => c.swap.key :=
        (h.map _).mem_iff
      rw [addFresh_singleton, addFresh_singleton]
      by_cases hk : k ∈ cs.map fun c => c.swap.key
      · rw [if_pos (hmem.mpr hk), if_pos hk]
        exact h
      · rw [if_neg (mt hmem.mp hk), if_neg hk]
        exact h.append_right _

/-- A fresh swap that is added does not bring in another key than its own. -/
theorem mem_keys_addFresh_singleton (hs : s.Keyed) {k k' : SwapKey} (hne : k ≠ k')
    (cs : List Candidate) :
    k ∈ (addFresh s height config [k'] cs).map (fun c => c.swap.key) ↔
      k ∈ cs.map fun c => c.swap.key := by
  rw [addFresh_singleton]
  split
  · exact Iff.rfl
  · rw [List.map_append, List.mem_append, or_iff_left]
    intro hk
    obtain ⟨c, hc, rfl⟩ := List.mem_map.mp hk
    exact hne (key_of_readyAt? hs (Option.mem_toList.mp hc))

/-- **Fresh swaps are added in whatever order they are fresh.** -/
theorem perm_addFresh_of_perm (hs : s.Keyed) {fresh fresh' : List SwapKey}
    (h : fresh'.Perm fresh) (cs : List Candidate) :
    (addFresh s height config fresh' cs).Perm (addFresh s height config fresh cs) := by
  induction h generalizing cs with
  | nil => exact .refl _
  | cons k _ ih => exact ih _
  | trans _ _ ih ih' => exact (ih cs).trans (ih' cs)
  | swap k k' fresh =>
      refine perm_addFresh fresh ?_
      show (addFresh s height config [k] (addFresh s height config [k'] cs)).Perm
        (addFresh s height config [k'] (addFresh s height config [k] cs))
      by_cases hne : k = k'
      · rw [hne]
      · -- each is added or not as if the other were not there
        have hadd : ∀ a b, a ≠ b → addFresh s height config [a] (addFresh s height config [b] cs) =
            if a ∈ cs.map (fun c => c.swap.key) then addFresh s height config [b] cs
            else addFresh s height config [b] cs ++ (readyAt? s height config a).toList := by
          intro a b hab
          rw [addFresh_singleton s height config a]
          simp only [mem_keys_addFresh_singleton hs hab]
        rw [hadd k k' hne, hadd k' k (Ne.symm hne), addFresh_singleton s height config k' cs,
          addFresh_singleton s height config k cs]
        by_cases hk : k ∈ cs.map fun c => c.swap.key
        · simp only [if_pos hk, List.Perm.refl]
        · by_cases hk' : k' ∈ cs.map fun c => c.swap.key
          · simp only [if_neg hk, if_pos hk', List.Perm.refl]
          · simp only [if_neg hk, if_neg hk', List.append_assoc]
            exact List.perm_append_comm.append_left cs

variable {q q' : SwapQueue}

theorem pairIndex_eq (h : s.SameButArrival s') : PairIndex.ofStore s' = PairIndex.ofStore s := by
  rw [PairIndex.ofStore, PairIndex.tradable, h.pools]
  rfl

/-- The candidates are the same, in another order. -/
theorem perm_candidates (h : s.SameButArrival s') (hs : s.Keyed) (hc : q'.config = q.config)
    (hfresh : q'.fresh.Perm q.fresh) (height : Nat) :
    (q'.candidates s' height).Perm (q.candidates s height) := by
  have hadd : ∀ fresh cs, addFresh s' height q.config fresh cs =
      addFresh s height q.config fresh cs := by
    intro fresh cs
    simp only [addFresh, h.swap?, h.isReady _ height q.config]
  rw [candidates, candidates, hc, pairIndex_eq h, h.pairFlags, hadd]
  exact (perm_addFresh _ (h.perm_fetch _ height q.config)).trans
    (perm_addFresh_of_perm hs hfresh _)

/-- **A block runs the same swaps in the same order.** -/
theorem agenda_eq (h : s.SameButArrival s') (hi : s.Indexed) (hc : q'.config = q.config)
    (hfresh : q'.fresh.Perm q.fresh) (height : Nat) :
    q'.agenda s' height = q.agenda s height := by
  have hperm := perm_candidates h hi.keyed hc hfresh height
  have hscored : ((q'.candidates s' height).map fun c => c.scored s.source q.config).Perm
      (q.scored s height) := hperm.map _
  rw [agenda, agenda, schedule, schedule, h.source, hc, hperm.length_eq]
  have hsorted := Candidate.sorted_eq_of_perm hscored.symm (q.nodup_scored height hi)
  rw [scored] at hsorted
  rw [hsorted]

end SwapQueue

/-! ### Runs do not look at the index -/

namespace Store

/-- The store with another limit index. -/
def reindex (s : Store) (m : OrderedMap LimitKey (List SwapKey)) : Store := { s with limits := m }

variable (s : Store) (m : OrderedMap LimitKey (List SwapKey))

theorem source_reindex : (s.reindex m).source = s.source := rfl

theorem setPools_reindex (ps : List Pool) :
    (s.reindex m).setPools ps = (s.setPools ps).reindex m := by
  induction ps generalizing s with
  | nil => rfl
  | cons p ps ih => exact ih (s.setPool p)

theorem settleSupply_reindex (o : Order) (emit : Amount) :
    o.settleSupply emit (s.reindex m) = (o.settleSupply emit s).reindex m := by
  simp only [Order.settleSupply]
  split <;> split <;> rfl

theorem keepFee_reindex (pool : Pool) (asset : Asset) (fee : Amount) :
    Payout.keepFee (s.reindex m) pool asset fee = (Payout.keepFee s pool asset fee).reindex m := by
  simp only [Payout.keepFee]
  split <;> rfl

theorem charge_reindex (coin : Coin) (config : Config) :
    Payout.charge (s.reindex m) coin config =
      (Payout.charge s coin config).map fun o => (o.1.reindex m, o.2) := by
  have hpricing : Payout.pricingPool (s.reindex m) coin.asset =
      Payout.pricingPool s coin.asset := rfl
  simp only [Payout.charge, hpricing, keepFee_reindex]
  split
  · cases Payout.netOf coin (min (.clamp config.pricing.outboundFee) coin.amount) <;> rfl
  · cases Payout.pricingPool s coin.asset with
    | error e => rfl
    | ok pool =>
        simp only [bind, Except.bind]
        cases Payout.netOf coin
          (min (pool.nativeInAsset (.clamp config.pricing.outboundFee)) coin.amount) <;> rfl

end Store

namespace Ledger

/-- The ledger with another limit index. -/
def reindex (l : Ledger) (m : OrderedMap LimitKey (List SwapKey)) : Ledger :=
  l.withStore (l.store.reindex m)

variable (l : Ledger) (m : OrderedMap LimitKey (List SwapKey))

theorem refund_reindex (tx : TxId) (coin : Coin) (reason : String) (config : Config) :
    ((l.reindex m).refund tx coin reason config).1 =
      (l.refund tx coin reason config).1.reindex m := by
  simp only [refund, show (l.reindex m).store = l.store.reindex m from rfl, Store.charge_reindex]
  cases Payout.charge l.store coin config <;> rfl

theorem outbound_reindex (tx : TxId) (recipient : Address) (coin : Coin) (config : Config) :
    ((l.reindex m).outbound tx recipient coin config).1 =
      (l.outbound tx recipient coin config).1.reindex m := by
  simp only [outbound, show (l.reindex m).store = l.store.reindex m from rfl,
    Store.charge_reindex]
  cases Payout.charge l.store coin config <;> rfl

theorem run_reindex (o : Order) (config : Config) :
    o.run config (l.reindex m) = (o.run config l).map fun r => (r.1.reindex m, r.2) := by
  simp only [Order.run, show (l.reindex m).store = l.store.reindex m from rfl,
    Store.source_reindex, Store.setPools_reindex, Store.settleSupply_reindex]
  cases o.validate with
  | error e => rfl
  | ok _ =>
      dsimp only
      cases Route.find l.store.source o.source.asset o.target o.source.amount o.tradeTarget
        config <;> rfl

end Ledger

namespace BlockRun

/-- The block on its way with another limit index. -/
def reindex (r : BlockRun Unit) (m : OrderedMap LimitKey (List SwapKey)) : BlockRun Unit :=
  { r with ledger := r.ledger.reindex m }

section Reindex

variable (r : BlockRun Unit) (m : OrderedMap LimitKey (List SwapKey)) (config : Config) (w : Swap)

theorem refund_reindex (coin : Coin) (reason : String) :
    (r.reindex m).refund w coin reason config = (r.refund w coin reason config).reindex m :=
  congrArg (fun l => { r with ledger := l }) (r.ledger.refund_reindex m w.tx coin reason config)

theorem pay_reindex (coin : Coin) :
    (r.reindex m).pay w coin config = (r.pay w coin config).reindex m :=
  congrArg (fun l => { r with ledger := l })
    (r.ledger.outbound_reindex m w.tx w.destination coin config)

theorem call_reindex (o : Order) :
    (r.reindex m).call .pools config o =
      ((r.call .pools config o).1.reindex m, (r.call .pools config o).2) := by
  simp only [call, Handler.pools, show (r.reindex m).ledger = r.ledger.reindex m from rfl,
    Ledger.run_reindex]
  cases o.run config r.ledger <;> rfl

theorem releaseAffiliate_reindex :
    (r.reindex m).releaseAffiliate .pools config w =
      (r.releaseAffiliate .pools config w).reindex m := by
  simp only [releaseAffiliate, call_reindex]
  cases w.affiliate with
  | none => rfl
  | some affiliate =>
      dsimp only
      split
      · rfl
      · split
        · rfl
        · obtain ⟨r₁, answer⟩ := r.call .pools config
            (affiliateOrder w affiliate ⟨w.source.asset, w.affiliateAmount⟩)
          cases answer with
          | ok fill => rfl
          | error e => exact refund_reindex ..

end Reindex

/-- The end of a block: the flags of the pairs are set and counted. -/
def close (index : PairIndex) (acc : BlockRun Unit × List Pair) : BlockRun Unit :=
  { acc.1 with
    ledger := acc.1.ledger.withStore (acc.1.ledger.store.setPairFlags (index.encode acc.2))
    report.flaggedPairs := acc.2.length }

/-! ### Lockstep -/

/-- Two blocks on their way have reported the same, in stores that agree but for arrival. -/
structure Alike (r r' : BlockRun Unit) : Prop where
  events : r'.ledger.events = r.ledger.events
  report : r'.report = r.report
  store : r.ledger.store.SameButArrival r'.ledger.store

namespace Alike

variable {r r' r₁ r₁' : BlockRun Unit} (config : Config) (w : Swap)

theorem eq_reindex (h : Alike r r') : r' = r.reindex r'.ledger.store.limits := by
  obtain ⟨_, ⟨s, _⟩, _⟩ := r
  obtain ⟨_, ⟨s', _⟩, _⟩ := r'
  obtain ⟨rfl, rfl, ⟨hp, hv, hn, hq, -, hf, ht⟩⟩ := h
  obtain ⟨_, _, _, _, _, _, _⟩ := s
  obtain ⟨_, _, _, _, _, _, _⟩ := s'
  obtain rfl : _ = _ := hp
  obtain rfl : _ = _ := hv
  obtain rfl : _ = _ := hn
  obtain rfl : _ = _ := hq
  obtain rfl : _ = _ := hf
  obtain rfl : _ = _ := ht
  rfl

/-- Calm operations that do not look at the index keep two blocks alike. -/
theorem of_calm (h : Alike r r') (hcalm : Calm r r₁)
    (he : r₁' = r₁.reindex r'.ledger.store.limits) : Alike r₁ r₁' := by
  subst he
  refine ⟨rfl, rfl, ⟨rfl, rfl, rfl, rfl, ?_, rfl, rfl⟩⟩
  show r'.ledger.store.crowds = r₁.ledger.store.crowds
  rw [h.store.crowds, Store.crowds, Store.crowds, hcalm.book.limits]

theorem refund (h : Alike r r') (coin : Coin) (reason : String) :
    Alike (r.refund w coin reason config) (r'.refund w coin reason config) := by
  refine h.of_calm (.refund r w coin reason config) ?_
  rw [← refund_reindex, ← h.eq_reindex]

theorem pay (h : Alike r r') (coin : Coin) :
    Alike (r.pay w coin config) (r'.pay w coin config) := by
  refine h.of_calm (.pay r w coin config) ?_
  rw [← pay_reindex, ← h.eq_reindex]

theorem releaseAffiliate (h : Alike r r') :
    Alike (r.releaseAffiliate .pools config w) (r'.releaseAffiliate .pools config w) := by
  refine h.of_calm (.releaseAffiliate config w r) ?_
  rw [← releaseAffiliate_reindex, ← h.eq_reindex]

/-- An order gets the same answer. -/
theorem call (h : Alike r r') (o : Order) :
    ∃ r₁ r₁' answer, r.call .pools config o = (r₁, answer) ∧
      r'.call .pools config o = (r₁', answer) ∧ Alike r₁ r₁' := by
  have hcall := (congrArg (·.call .pools config o) h.eq_reindex).trans (call_reindex r _ config o)
  obtain ⟨r₁, hcalm, ⟨fill, he, -⟩ | ⟨e, he⟩⟩ := call_pools config o r <;> rw [he] at hcall
  · exact ⟨r₁, _, .ok fill, he, hcall, h.of_calm hcalm rfl⟩
  · exact ⟨r₁, _, .error e, he, hcall, h.of_calm hcalm rfl⟩

theorem emit (h : Alike r r') (event : Event) : Alike (r.emit event) (r'.emit event) :=
  ⟨congrArg (· ++ [event]) h.events, h.report, h.store⟩

theorem withReport (h : Alike r r') (f : BlockReport → BlockReport) :
    Alike { r with report := f r.report } { r' with report := f r'.report } :=
  ⟨h.events, congrArg f h.report, h.store⟩

theorem withStream (h : Alike r r') (p : SwapStream) :
    Alike { r with ledger := r.ledger.withStore (r.ledger.store.setStream p) }
      { r' with ledger := r'.ledger.withStore (r'.ledger.store.setStream p) } :=
  ⟨h.events, h.report, ⟨h.store.pools, h.store.providers, h.store.supplies, h.store.queue,
    h.store.crowds, h.store.pairFlags, congrArg (·.insert p.tx p) h.store.streams⟩⟩

theorem drop (h : Alike r r') : Alike (r.drop w) (r'.drop w) :=
  ⟨h.events, h.report, h.store.dropSwap w⟩

theorem retain (h : Alike r r') : Alike r.retain r'.retain :=
  h.withReport fun b => { b with retained := b.retained + 1 }

theorem giveBack (h : Alike r r') (reason : OrderError) :
    Alike (r.giveBack w reason config) (r'.giveBack w reason config) :=
  ((h.refund config w w.source reason.message).withReport
    fun b => { b with refunded := b.refunded + 1 }).drop w

theorem settleStream (h : Alike r r') (p : SwapStream) :
    Alike (r.settleStream config w p) (r'.settleStream config w p) := by
  cases hout : p.output.isZero <;> cases hrest : p.remainder.isZero <;>
    simp only [BlockRun.settleStream, hout, hrest, if_true, Bool.false_eq_true, if_false]
  · exact (((h.pay config w _).refund config w _ _).emit _).drop w
  · exact ((h.pay config w _).emit _).drop w
  · exact ((h.refund config w _ _).emit _).drop w
  · exact (h.emit _).drop w

theorem storeProgress (h : Alike r r') (p : SwapStream) :
    Alike (r.storeProgress config w p) (r'.storeProgress config w p) := by
  rw [BlockRun.storeProgress, BlockRun.storeProgress]
  split
  · exact h.settleStream config w p
  · exact h.withStream p

theorem executeSingle (h : Alike r r') :
    Alike (r.executeSingle .pools config w).1 (r'.executeSingle .pools config w).1 ∧
      (r'.executeSingle .pools config w).2 = (r.executeSingle .pools config w).2 := by
  rw [BlockRun.executeSingle, BlockRun.executeSingle]
  obtain ⟨r₁, r₁', answer, he, he', hr⟩ :=
    h.call config (orderOf w w.primaryAmount w.tradeTarget)
  rw [he, he']
  cases answer with
  | ok fill => exact ⟨((hr.releaseAffiliate config w).pay config w _).drop w, rfl⟩
  | error e =>
      dsimp only
      split
      · exact ⟨hr.retain, rfl⟩
      · exact ⟨hr.giveBack config w e, rfl⟩

theorem executeSlice (h : Alike r r') (height : Nat) :
    Alike (r.executeSlice .pools config height w).1 (r'.executeSlice .pools config height w).1 ∧
      (r'.executeSlice .pools config height w).2 =
        (r.executeSlice .pools config height w).2 := by
  have hprogress : r'.ledger.store.progress w = r.ledger.store.progress w := by
    rw [Store.progress, Store.progress, Store.stream?, Store.stream?, h.store.streams]
  rw [BlockRun.executeSlice, BlockRun.executeSlice, hprogress]
  generalize r.ledger.store.progress w = p
  dsimp only
  cases p.nextSlice with
  | error e => exact ⟨h.settleStream config w p, rfl⟩
  | ok slice =>
      obtain ⟨size, target⟩ := slice
      dsimp only
      obtain ⟨r₁, r₁', answer, he, he', hr⟩ := h.call config (orderOf w size target)
      rw [he, he']
      cases answer with
      | ok fill =>
          dsimp only
          split
          · exact ⟨(hr.releaseAffiliate config w).storeProgress config w _, rfl⟩
          · exact ⟨hr.storeProgress config w _, rfl⟩
      | error e =>
          dsimp only
          split
          · exact ⟨hr.retain, rfl⟩
          · split
            · exact ⟨hr.giveBack config w e, rfl⟩
            · exact ⟨(hr.withReport fun b => { b with
                sliceFailures := b.sliceFailures + 1 }).storeProgress config w _, rfl⟩

/-- **Running a swap keeps two blocks alike**, and fills it in both or in neither. -/
theorem execute (h : Alike r r') (height : Nat) :
    Alike (r.execute .pools config height w).1 (r'.execute .pools config height w).1 ∧
      (r'.execute .pools config height w).2 = (r.execute .pools config height w).2 := by
  rw [BlockRun.execute, BlockRun.execute]
  split
  · exact h.executeSlice config w height
  · exact h.executeSingle config w

/-- **So does running one after the other.** -/
theorem foldl_step (height : Nat) (index : PairIndex) (ws : List Swap) (flags : List Pair)
    (h : Alike r r') :
    Alike (ws.foldl (BlockRun.step .pools config height index) (r, flags)).1
        (ws.foldl (BlockRun.step .pools config height index) (r', flags)).1 ∧
      (ws.foldl (BlockRun.step .pools config height index) (r', flags)).2 =
        (ws.foldl (BlockRun.step .pools config height index) (r, flags)).2 := by
  induction ws generalizing r r' flags with
  | nil => exact ⟨h, rfl⟩
  | cons w ws ih =>
      obtain ⟨hr, hfilled⟩ := h.execute config w height
      rw [List.foldl_cons, List.foldl_cons, BlockRun.step, BlockRun.step, hfilled]
      split
      · exact ih _ (hr.withReport fun b => { b with executed := b.executed + 1 })
      · exact ih _ hr

theorem close (h : Alike r r') (index : PairIndex) (flags : List Pair) :
    Alike (BlockRun.close index (r, flags)) (BlockRun.close index (r', flags)) := by
  have hflagged := h.withReport fun b => { b with flaggedPairs := flags.length }
  exact ⟨hflagged.events, hflagged.report, ⟨h.store.pools, h.store.providers, h.store.supplies,
    h.store.queue, h.store.crowds, rfl, h.store.streams⟩⟩

end Alike

end BlockRun

namespace SwapQueue

/-- The block that runs `ws`, one after the other. -/
def blockOf (q : SwapQueue) (height : Nat) (l : Ledger) (ws : List Swap) : BlockRun Unit :=
  BlockRun.close (PairIndex.ofStore l.store)
    (ws.foldl (BlockRun.step .pools q.config height (PairIndex.ofStore l.store))
      (q.openBlock height () l, []))

/-- A block that does not rest runs its agenda. -/
theorem endBlock_eq_blockOf {q : SwapQueue} {height : Nat} (hr : rests q.config height = false)
    (l : Ledger) :
    (endBlock .pools q height () l).2 = q.blockOf height l (q.agenda l.store height) := by
  rw [endBlock, if_neg (Bool.eq_false_iff.mp hr)]
  rfl

/-- **Blocks do not see the order of arrival.** -/
theorem alike_endBlock {q q' : SwapQueue} {l l' : Ledger} (hi : l.store.Indexed)
    (hc : q'.config = q.config) (hfresh : q'.fresh.Perm q.fresh) (hevents : l'.events = l.events)
    (hstore : l.store.SameButArrival l'.store) (height : Nat) :
    (endBlock .pools q height () l).2.Alike (endBlock .pools q' height () l').2 := by
  cases hr : rests q.config height with
  | true =>
      rw [endBlock, endBlock, hc, if_pos hr, if_pos hr]
      exact ⟨hevents, rfl, hstore⟩
  | false =>
      have hopen : (q.openBlock height () l).Alike (q'.openBlock height () l') := by
        refine ⟨hevents, ?_, hstore⟩
        rw [openBlock, openBlock, (perm_candidates hstore hi.keyed hc hfresh height).length_eq]
      obtain ⟨hrun, hflags⟩ := hopen.foldl_step q.config height (PairIndex.ofStore l.store)
        (q.agenda l.store height) []
      rw [endBlock_eq_blockOf hr, endBlock_eq_blockOf (hc ▸ hr), blockOf, blockOf,
        pairIndex_eq hstore, hc, agenda_eq hstore hi hc hfresh,
        ← Prod.eta (List.foldl _ (q'.openBlock height () l', []) _), hflags]
      exact hrun.close _ _

end SwapQueue

end PoolExchange
