import PoolExchange.Proofs.Exchange

/-!
# Queue — no swap runs twice in a block

The limit index is *coherent* (`Store.Indexed`) when every entry of a bucket names a queued limit
swap of that bucket, no bucket names a swap twice, and no pool is kept for native itself.  Every
action keeps it coherent, and while it is, the swaps of a block are queued and pairwise different
(`SwapQueue.nodup_agenda`).
-/

namespace PoolExchange

namespace Store

/-! ### Buckets -/

theorem bucket_insertLimit (s : Store) (b b' : LimitKey) (k : SwapKey) :
    (s.insertLimit b k).bucket b' =
      if b' = b then (if k ∈ s.bucket b then s.bucket b else s.bucket b ++ [k])
      else s.bucket b' := by
  simp only [bucket, insertLimit, OrderedMap.find?_insert]
  by_cases hb : b' = b
  · simp only [if_pos hb, Option.getD_some]
  · simp only [if_neg hb]

theorem bucket_removeLimit (s : Store) (b b' : LimitKey) (k : SwapKey) :
    (s.removeLimit b k).bucket b' =
      if b' = b then (s.bucket b).filter (· ≠ k) else s.bucket b' := by
  simp only [bucket, removeLimit]
  cases hf : s.limits.find? b with
  | none =>
      by_cases hb : b' = b
      · simp only [hb, hf, if_true, Option.getD_none, List.filter_nil]
      · simp only [if_neg hb]
  | some swaps =>
      by_cases he : (swaps.filter (· ≠ k)).isEmpty
      · simp only [he, if_true, OrderedMap.find?_erase, Option.getD_some]
        by_cases hb : b' = b
        · simp only [if_pos hb, Option.getD_none]
          exact (List.isEmpty_iff.mp he).symm
        · simp only [if_neg hb]
      · simp only [he, Bool.false_eq_true, if_false, OrderedMap.find?_insert, Option.getD_some]
        by_cases hb : b' = b
        · simp only [if_pos hb, Option.getD_some]
        · simp only [if_neg hb]

/-- A swap that enters stands last in its bucket. -/
theorem bucket_enter (s : Store) {w : Swap} (hfresh : w.key ∉ s.bucket (.ofSwap w))
    (b : LimitKey) :
    (SwapQueue.enter s w).bucket b =
      if w.isLimit = true ∧ b = .ofSwap w then s.bucket b ++ [w.key] else s.bucket b := by
  cases hl : w.isLimit with
  | false =>
      simp only [SwapQueue.enter, hl, Bool.false_eq_true, if_false, false_and]
      split <;> rfl
  | true =>
      have hstart : (SwapQueue.enter s w).bucket b =
          (s.insertLimit (.ofSwap w) w.key).bucket b := by
        simp only [SwapQueue.enter, hl, if_true]
        split <;> rfl
      rw [hstart, bucket_insertLimit, if_neg hfresh]
      by_cases hb : b = .ofSwap w
      · rw [if_pos hb, if_pos ⟨rfl, hb⟩, hb]
      · rw [if_neg hb, if_neg fun h => hb h.2]

/-- A swap that is dropped leaves its bucket. -/
theorem bucket_dropSwap (s : Store) (w : Swap) (b : LimitKey) :
    (BlockRun.dropSwap s w).bucket b =
      if w.isLimit = true ∧ b = .ofSwap w then (s.bucket b).filter (· ≠ w.key)
      else s.bucket b := by
  cases hl : w.isLimit with
  | false =>
      simp only [BlockRun.dropSwap, hl, Bool.false_eq_true, if_false, false_and]
      split <;> rfl
  | true =>
      have hstart : (BlockRun.dropSwap s w).bucket b =
          ((s.removeSwap w.key).removeLimit (.ofSwap w) w.key).bucket b := by
        simp only [BlockRun.dropSwap, hl, if_true]
        split <;> rfl
      rw [hstart, bucket_removeLimit]
      by_cases hb : b = .ofSwap w
      · rw [if_pos hb, if_pos ⟨rfl, hb⟩, hb]; rfl
      · rw [if_neg hb, if_neg fun h => hb h.2]; rfl

/-- **Coherence of the limit index.** -/
structure Indexed (s : Store) : Prop where
  keyed : s.Keyed
  /-- No pool is kept for native. -/
  foreign : s.pools.find? .native = none
  entry : ∀ b k, k ∈ s.bucket b →
    ∃ w, s.swap? k = some w ∧ w.isLimit = true ∧ LimitKey.ofSwap w = b
  nodup : ∀ b, (s.bucket b).Nodup

namespace Indexed

variable {s : Store}

/-- A store with nothing in its limit index is coherent. -/
theorem of_limits (hs : s.Keyed) (hforeign : s.pools.find? .native = none)
    (hlimits : s.limits = .empty) : s.Indexed := by
  have hbucket : ∀ b, s.bucket b = [] := by
    intro b
    rw [bucket, hlimits, OrderedMap.find?_empty]
    rfl
  refine ⟨hs, hforeign, fun b k hk => ?_, fun b => ?_⟩
  · rw [hbucket] at hk
    cases hk
  · rw [hbucket]
    exact List.nodup_nil

theorem empty : Indexed .empty := of_limits .empty rfl rfl

/-- Coherence is about the queue and the index, and about which pools there are. -/
theorem congr (hi : s.Indexed) {s' : Store} (hk : s'.Keyed) (hn : s'.pools.find? .native = none)
    (hq : s'.queue = s.queue) (hl : s'.limits = s.limits) : s'.Indexed := by
  have hb : ∀ b, s'.bucket b = s.bucket b := fun b => by rw [bucket, bucket, hl]
  refine ⟨hk, hn, fun b k h => ?_, fun b => hb b ▸ hi.nodup b⟩
  rw [hb] at h
  rw [swap?, hq]
  exact hi.entry b k h

/-- A swap whose key is new enters the queue and, if it is a limit swap, its bucket. -/
theorem enter (hi : s.Indexed) {w : Swap} (hnew : s.swap? w.key = none) :
    (SwapQueue.enter s w).Indexed := by
  have hpools := (SwapQueue.frame_enter s w).1
  -- every entry is queued, and the key of `w` is not
  have hfresh : w.key ∉ s.bucket (.ofSwap w) := fun hm => by
    obtain ⟨v, hv, -⟩ := hi.entry _ _ hm
    rw [hnew] at hv
    cases hv
  have hlimits := bucket_enter s hfresh
  refine ⟨SwapQueue.keyed_enter hi.keyed w, by rw [hpools]; exact hi.foreign, fun b k hk => ?_,
    fun b => ?_⟩
  · rw [hlimits] at hk
    rw [SwapQueue.swap?_enter]
    have hold : k ∈ s.bucket b →
        ∃ v, (if k = w.key then some w else s.swap? k) = some v ∧ v.isLimit = true ∧
          LimitKey.ofSwap v = b := by
      intro hm
      obtain ⟨v, hv, hvl, hvb⟩ := hi.entry b k hm
      refine ⟨v, ?_, hvl, hvb⟩
      rw [if_neg (fun e => by rw [e, hnew] at hv; cases hv)]
      exact hv
    split at hk
    · rename_i hb
      rcases List.mem_append.mp hk with hm | hm
      · exact hold hm
      · exact ⟨w, if_pos (List.mem_singleton.mp hm), hb.1, hb.2.symm⟩
    · exact hold hk
  · rw [hlimits]
    split
    · refine List.nodup_append.mpr ⟨hi.nodup b, List.nodup_singleton _, fun a ha c hc e => ?_⟩
      obtain ⟨v, hv, -⟩ := hi.entry b a ha
      rw [e, List.mem_singleton.mp hc, hnew] at hv
      cases hv
    · exact hi.nodup b

/-- A queued swap, or one that has left the queue before, leaves the queue and its bucket. -/
theorem dropSwap (hi : s.Indexed) {w : Swap}
    (hw : s.swap? w.key = some w ∨ s.swap? w.key = none) :
    (BlockRun.dropSwap s w).Indexed := by
  have hpools := (BlockRun.frame_dropSwap s w).1
  have hlimits := bucket_dropSwap s w
  refine ⟨BlockRun.keyed_dropSwap hi.keyed w, by rw [hpools]; exact hi.foreign, fun b k hk => ?_,
    fun b => ?_⟩
  · have hm : k ∈ s.bucket b ∧ k ≠ w.key := by
      rw [hlimits] at hk
      split at hk
      · rw [List.mem_filter, decide_eq_true_eq] at hk
        exact hk
      · rename_i hb
        refine ⟨hk, fun e => hb ?_⟩
        -- an entry under the key of `w` is `w` itself
        obtain ⟨v, hv, hvl, hvb⟩ := hi.entry b k hk
        rw [e] at hv
        rcases hw with hw | hw <;> rw [hw] at hv
        · obtain rfl := Option.some.inj hv
          exact ⟨hvl, hvb.symm⟩
        · cases hv
    obtain ⟨v, hv, hvl, hvb⟩ := hi.entry b k hm.1
    exact ⟨v, by rw [BlockRun.swap?_dropSwap, if_neg hm.2]; exact hv, hvl, hvb⟩
  · rw [hlimits]
    split
    · exact (hi.nodup b).filter _
    · exact hi.nodup b

end Indexed

/-! ### Candidates -/

/-- Every candidate is queued, and no two have the same key. -/
structure Distinct (s : Store) (cs : List Candidate) : Prop where
  queued : ∀ c ∈ cs, s.swap? c.swap.key = some c.swap
  nodup : (cs.map fun c => c.swap.key).Nodup

theorem find?_of_mem_limits {s : Store} {b : LimitKey × List SwapKey}
    (hb : b ∈ s.limits.entries) : s.bucket b.1 = b.2 := by
  rw [bucket, OrderedMap.find?_eq_some_iff.mpr (show (b.1, b.2) ∈ s.limits.entries from hb),
    Option.getD_some]

namespace Indexed

variable {s : Store} {height : Nat} {config : Config}

theorem key_of_admit? (hi : s.Indexed) {k : SwapKey} {w : Swap}
    (h : s.admit? height config k = some w) : s.swap? k = some w ∧ w.key = k := by
  rw [admit?, Option.filter_eq_some_iff] at h
  exact ⟨h.1, hi.keyed.swap k w h.1⟩

variable (height config) in
theorem distinct_markets (hi : s.Indexed) : s.Distinct (s.markets height config) := by
  refine ⟨fun c hc => ?_, ?_⟩
  · obtain ⟨w, hw, rfl⟩ := List.mem_map.mp hc
    obtain ⟨k, hk⟩ := OrderedMap.mem_values_iff.mp (List.mem_of_mem_filter hw)
    rw [show (Candidate.ofSwap w).swap = w from rfl, hi.keyed.swap k w hk]
    exact hk
  · have hkeys : s.queue.values.map Swap.key = s.queue.keys := by
      rw [OrderedMap.values, OrderedMap.keys, List.map_map]
      refine List.map_congr_left fun e he => ?_
      exact hi.keyed.swap e.1 e.2 (OrderedMap.find?_eq_some_iff.mpr he)
    rw [markets, List.map_map]
    refine (List.filter_sublist.map Swap.key).nodup ?_
    rw [hkeys]
    exact s.queue.nodup_keys

/-- What a walk finds: queued limit swaps of its pair. -/
theorem of_mem_discover (hi : s.Indexed) {pair : Pair} {c : Candidate}
    (hc : c ∈ s.discover pair height config) :
    s.swap? c.swap.key = some c.swap ∧ c.swap.isLimit = true ∧ c.swap.pair = pair := by
  obtain ⟨b, hb, hc⟩ := List.mem_flatMap.mp hc
  obtain ⟨w, hw, rfl⟩ := List.mem_map.mp hc
  obtain ⟨k, hk, hadmit⟩ := List.mem_filterMap.mp hw
  obtain ⟨hfind, hkey⟩ := hi.key_of_admit? hadmit
  have hmem := (List.takeWhile_sublist _).subset hb
  rw [bucketsOf, List.mem_filter, Bool.and_eq_true, decide_eq_true_eq] at hmem
  obtain ⟨hlimits, hpair, -⟩ := hmem
  rw [← find?_of_mem_limits hlimits] at hk
  obtain ⟨v, hv, hvl, hvb⟩ := hi.entry b.1 k hk
  obtain rfl := Option.some.inj (hfind.symm.trans hv)
  refine ⟨by rw [show (Candidate.ofSwap w).swap = w from rfl, hkey]; exact hfind, hvl, ?_⟩
  rw [← hpair, ← hvb]
  rfl

theorem nodup_discover (hi : s.Indexed) (pair : Pair) :
    ((s.discover pair height config).map fun c => c.swap.key).Nodup := by
  rw [discover, List.map_flatMap, List.nodup_flatMap]
  have hbuckets : ∀ b ∈ s.bucketsOf pair, s.bucket b.1 = b.2 := fun b hb =>
    find?_of_mem_limits (List.mem_of_mem_filter hb)
  -- the keys that a bucket yields are keys of the bucket
  have hkeys : ∀ ks : List SwapKey,
      ((((ks.filterMap (s.admit? height config)).map Candidate.ofSwap).map
        fun c => c.swap.key)).Sublist ks := by
    intro ks
    induction ks with
    | nil => exact List.Sublist.refl _
    | cons k ks ih =>
        cases hk : s.admit? height config k with
        | none => rw [List.filterMap_cons_none hk]; exact ih.cons k
        | some w =>
            rw [List.filterMap_cons_some hk, List.map_cons, List.map_cons,
              show (Candidate.ofSwap w).swap.key = k from (hi.key_of_admit? hk).2]
            exact ih.cons_cons k
  constructor
  · intro b hb
    refine (hkeys b.2).nodup ?_
    rw [← hbuckets b ((List.takeWhile_sublist _).subset hb)]
    exact hi.nodup b.1
  · -- a swap found in two buckets would belong to both
    have hpairwise : (s.bucketsOf pair).Pairwise fun a b => a.1 ≠ b.1 := by
      refine List.Pairwise.filter _ (s.limits.ascending.imp fun {a b} h e => ?_)
      rw [e] at h
      simp at h
    refine (hpairwise.sublist (List.takeWhile_sublist _)).imp_of_mem ?_
    intro a b ha hb hne k hka hkb
    have hka := (hkeys a.2).subset hka
    have hkb := (hkeys b.2).subset hkb
    rw [← hbuckets a ((List.takeWhile_sublist _).subset ha)] at hka
    rw [← hbuckets b ((List.takeWhile_sublist _).subset hb)] at hkb
    obtain ⟨v, hv, -, hvb⟩ := hi.entry a.1 k hka
    obtain ⟨v', hv', -, hvb'⟩ := hi.entry b.1 k hkb
    obtain rfl := Option.some.inj (hv.symm.trans hv')
    exact hne (hvb.symm.trans hvb')

theorem distinct_fetch (hi : s.Indexed) {flagged : List Pair} (hf : flagged.Nodup) :
    s.Distinct (s.fetch flagged height config) := by
  have hmarkets := hi.distinct_markets height config
  refine ⟨fun c hc => ?_, ?_⟩
  · rcases List.mem_append.mp hc with hc | hc
    · exact hmarkets.queued c hc
    · obtain ⟨pair, -, hc⟩ := List.mem_flatMap.mp hc
      exact (hi.of_mem_discover hc).1
  · rw [fetch, List.map_append, List.nodup_append]
    refine ⟨hmarkets.nodup, ?_, ?_⟩
    · rw [List.map_flatMap, List.nodup_flatMap]
      refine ⟨fun pair _ => hi.nodup_discover pair, ?_⟩
      refine hf.imp fun {p p'} hne k hk hk' => ?_
      obtain ⟨c, hc, rfl⟩ := List.mem_map.mp hk
      obtain ⟨c', hc', he⟩ := List.mem_map.mp hk'
      obtain ⟨hq, -, hp⟩ := hi.of_mem_discover hc
      obtain ⟨hq', -, hp'⟩ := hi.of_mem_discover hc'
      rw [he, hq] at hq'
      rw [← Option.some.inj hq', hp] at hp'
      exact hne hp'
    · -- a market swap is not a limit swap
      intro k hk k' hk' he
      obtain ⟨c, hc, rfl⟩ := List.mem_map.mp hk
      obtain ⟨c', hc', rfl⟩ := List.mem_map.mp hk'
      obtain ⟨w, hw, rfl⟩ := List.mem_map.mp hc
      obtain ⟨pair, -, hc'⟩ := List.mem_flatMap.mp hc'
      obtain ⟨hq', hl, -⟩ := hi.of_mem_discover hc'
      have hq := hmarkets.queued _ hc
      rw [he, hq'] at hq
      rw [Option.some.inj hq] at hl
      have hmarket := (List.mem_filter.mp hw).2
      simp only [Candidate.ofSwap] at hl
      simp [hl] at hmarket

end Indexed

end Store

/-! ### The swaps of a block -/

namespace PairIndex

theorem nodup_ofAssets {assets : List Asset} (h : assets.Nodup) :
    (ofAssets assets).pairs.Nodup := by
  rw [ofAssets, List.nodup_flatMap]
  refine ⟨fun source _ => ?_, h.imp fun {a b} hne p ha hb => hne ?_⟩
  · exact (h.filter _).map fun a b e => congrArg Pair.target e
  · obtain ⟨t, -, rfl⟩ := List.mem_map.mp ha
    obtain ⟨t', -, he⟩ := List.mem_map.mp hb
    exact (congrArg Pair.source he).symm

/-- While there is no pool of native, every pair has one place in the index. -/
theorem nodup_ofStore {s : Store} (hi : s.Indexed) : (ofStore s).pairs.Nodup := by
  have hkeys : s.pools.values.map Pool.asset = s.pools.keys := by
    rw [OrderedMap.values, OrderedMap.keys, List.map_map]
    refine List.map_congr_left fun e he => ?_
    exact hi.keyed.pool e.1 e.2 (OrderedMap.find?_eq_some_iff.mpr he)
  refine nodup_ofAssets (List.nodup_cons.mpr ⟨fun hm => ?_, ?_⟩)
  · obtain ⟨p, hp, hasset⟩ := List.mem_map.mp hm
    obtain ⟨k, hk⟩ := OrderedMap.mem_values_iff.mp (List.mem_of_mem_filter hp)
    have hforeign := hi.foreign
    rw [← hasset, hi.keyed.pool k p hk, hk] at hforeign
    cases hforeign
  · refine (List.filter_sublist.map Pool.asset).nodup ?_
    rw [hkeys]
    exact s.pools.nodup_keys

theorem nodup_decode? {i : PairIndex} (h : i.pairs.Nodup) (flags : List Bool) :
    ((i.decode? flags).getD []).Nodup := by
  rw [decode?]
  split
  · rename_i hlen
    rw [Option.getD_some]
    refine (List.filter_sublist.map Prod.fst).nodup ?_
    rw [List.map_fst_zip (by rw [hlen]; exact Nat.le_refl _)]
    exact h
  · exact List.nodup_nil

end PairIndex

namespace SwapQueue

/-- The candidate under a key, if the swap there may run. -/
def readyAt? (s : Store) (height : Nat) (config : Config) (k : SwapKey) : Option Candidate :=
  ((s.swap? k).filter fun w => s.isReady w height config).map .ofSwap

theorem addFresh_cons (s : Store) (height : Nat) (config : Config) (k : SwapKey)
    (fresh : List SwapKey) (cs : List Candidate) :
    addFresh s height config (k :: fresh) cs =
      addFresh s height config fresh (addFresh s height config [k] cs) := rfl

/-- A fresh swap is added when it is not there yet and may run. -/
theorem addFresh_singleton (s : Store) (height : Nat) (config : Config) (k : SwapKey)
    (cs : List Candidate) :
    addFresh s height config [k] cs =
      if k ∈ cs.map (fun c => c.swap.key) then cs
      else cs ++ (readyAt? s height config k).toList := by
  have hany : (cs.any fun c => c.swap.key = k) = true ↔ k ∈ cs.map fun c => c.swap.key := by
    simp only [List.any_eq_true, decide_eq_true_eq, List.mem_map]
  rw [addFresh, List.foldl_cons, List.foldl_nil]
  by_cases hk : k ∈ cs.map fun c => c.swap.key
  · rw [if_pos (hany.mpr hk), if_pos hk]
  · rw [if_neg (mt hany.mp hk), if_neg hk, readyAt?]
    cases s.swap? k with
    | none => exact (List.append_nil cs).symm
    | some w =>
        dsimp only [Option.filter]
        split
        · rfl
        · exact (List.append_nil cs).symm

theorem key_of_readyAt? {s : Store} (hs : s.Keyed) {height : Nat} {config : Config} {k : SwapKey}
    {c : Candidate} (h : readyAt? s height config k = some c) : c.swap.key = k := by
  obtain ⟨w, hw, rfl⟩ := Option.map_eq_some_iff.mp h
  exact hs.swap k w (Option.filter_eq_some_iff.mp hw).1

theorem distinct_addFresh {s : Store} (hs : s.Keyed) (height : Nat) (config : Config)
    (fresh : List SwapKey) {cs : List Candidate} (h : s.Distinct cs) :
    s.Distinct (addFresh s height config fresh cs) := by
  induction fresh generalizing cs with
  | nil => exact h
  | cons key fresh ih =>
      refine ih ?_
      dsimp only
      split
      · exact h
      · rename_i hany
        cases hw : s.swap? key with
        | none => exact h
        | some w =>
            dsimp only
            split
            · have hkey : w.key = key := hs.swap key w hw
              refine ⟨fun c hc => ?_, ?_⟩
              · rcases List.mem_append.mp hc with hc | hc
                · exact h.queued c hc
                · rw [List.mem_singleton.mp hc, show (Candidate.ofSwap w).swap = w from rfl, hkey]
                  exact hw
              · rw [List.map_append, List.nodup_append]
                refine ⟨h.nodup, List.nodup_singleton _, fun k hk k' hk' he => hany ?_⟩
                obtain ⟨c, hc, rfl⟩ := List.mem_map.mp hk
                have hk' : k' = w.key := List.mem_singleton.mp hk'
                rw [List.any_eq_true]
                exact ⟨c, hc, decide_eq_true (he.trans (hk'.trans hkey))⟩
            · exact h

variable {s : Store} (q : SwapQueue) (height : Nat)

theorem distinct_candidates (hi : s.Indexed) : s.Distinct (q.candidates s height) :=
  distinct_addFresh hi.keyed height q.config q.fresh
    (hi.distinct_fetch (PairIndex.nodup_decode? (PairIndex.nodup_ofStore hi) s.pairFlags))

/-- The swaps of a block are some of its candidates, in another order. -/
theorem agenda_sublist (s : Store) :
    ∃ cs : List Swap, (q.agenda s height).Sublist cs ∧
      cs.Perm ((q.candidates s height).map Candidate.swap) := by
  have hscored : (((q.candidates s height).map fun c => c.scored s.source q.config).map
      Candidate.swap) = (q.candidates s height).map Candidate.swap := by
    rw [List.map_map]
    rfl
  refine ⟨_, (List.take_sublist _ _).map Candidate.swap, ?_⟩
  rw [← hscored]
  exact (List.mergeSort_perm _ _).map Candidate.swap

/-- **Every swap of a block is queued.** -/
theorem queued_agenda (hi : s.Indexed) : ∀ w ∈ q.agenda s height, s.swap? w.key = some w := by
  intro w hw
  obtain ⟨cs, hsub, hperm⟩ := q.agenda_sublist height s
  obtain ⟨c, hc, rfl⟩ := List.mem_map.mp (hperm.subset (hsub.subset hw))
  exact (q.distinct_candidates height hi).queued c hc

/-- **No swap runs twice in a block.** -/
theorem nodup_agenda (hi : s.Indexed) : ((q.agenda s height).map Swap.key).Nodup := by
  obtain ⟨cs, hsub, hperm⟩ := q.agenda_sublist height s
  refine (hsub.map Swap.key).nodup ((hperm.map Swap.key).nodup_iff.mpr ?_)
  rw [List.map_map]
  exact (q.distinct_candidates height hi).nodup

end SwapQueue

end PoolExchange
