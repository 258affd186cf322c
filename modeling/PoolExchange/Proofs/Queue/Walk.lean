import PoolExchange.Proofs.Queue.Filing
import PoolExchange.Proofs.Queue.PairIndex

/-!
# Queue — the swaps a block considers

A block *considers* the swaps among its candidates (`SwapQueue.Considers`).  A walk down the buckets
of a pair stops at the first that does not clear; since the buckets come in falling order of ratio
and a higher ratio clears whenever a lower one does (`PoolSource.clears_mono`), it sees exactly the
buckets that clear (`Store.mem_walk_iff`).

The main result is `SwapQueue.considers_iff`: **a queued swap is considered exactly when it may run
and is a market swap, or a limit swap accepted since the last block, or a limit swap of a flagged
pair whose bucket clears and whose target the pools exceed.**
-/

namespace PoolExchange

/-! ### The buckets that clear -/

/-- A bucket that asks for more input clears whenever one that asks for less does. -/
theorem PoolSource.clears_mono {pools : PoolSource} {pair : Pair} {b b' : Ratio}
    (hle : b.value ≤ b'.value) (h : pools.clears pair b = true) : pools.clears pair b' = true := by
  rw [clears] at h ⊢
  split at h
  · rw [decide_eq_true_eq] at h
    exact decide_eq_true (Nat.lt_of_lt_of_le h hle)
  · cases h

namespace Store

/-- A walk of a list in which `p` never starts to hold sees all of which it holds. -/
theorem takeWhile_eq_filter {α : Type} {p : α → Bool} {l : List α}
    (h : l.Pairwise fun a b => p b = true → p a = true) : l.takeWhile p = l.filter p := by
  induction l with
  | nil => rfl
  | cons b l ih =>
      obtain ⟨hb, hl⟩ := List.pairwise_cons.mp h
      by_cases hp : p b = true
      · rw [List.takeWhile_cons_of_pos hp, List.filter_cons_of_pos hp, ih hl]
      · rw [List.takeWhile_cons_of_neg hp, List.filter_cons_of_neg hp, eq_comm,
          List.filter_eq_nil_iff]
        exact fun a ha hpa => hp (hb a ha hpa)

/-- The buckets of a pair come in falling order of ratio. -/
theorem pairwise_bucketsOf (s : Store) (pair : Pair) :
    (s.bucketsOf pair).Pairwise fun a b => b.1.ratio.value < a.1.ratio.value := by
  have hpair : ∀ b ∈ s.bucketsOf pair, b.1.pair = pair := fun b hb => by
    have hfilter := (List.mem_filter.mp hb).2
    rw [Bool.and_eq_true, decide_eq_true_eq] at hfilter
    exact hfilter.1
  refine (s.limits.ascending.filter _).imp_of_mem ?_
  intro a b ha hb hlt
  have hlt : compareLex (compareOn LimitKey.pair) (fun a b => compareOn LimitKey.ratio b a) a.1 b.1 =
      .lt := hlt
  rw [compareLex, compareOn, hpair a ha, hpair b hb, Std.compare_self] at hlt
  exact Nat.compare_eq_lt.mp hlt

/-- **A walk sees the buckets of its pair that clear.** -/
theorem walk_eq_filter (s : Store) (pair : Pair) :
    ((s.bucketsOf pair).takeWhile fun b => s.source.clears pair b.1.ratio) =
      (s.bucketsOf pair).filter fun b => s.source.clears pair b.1.ratio :=
  takeWhile_eq_filter ((s.pairwise_bucketsOf pair).imp fun h =>
    PoolSource.clears_mono (Nat.le_of_lt h))

theorem mem_walk_iff {s : Store} {pair : Pair} {b : LimitKey × List SwapKey} :
    (b ∈ (s.bucketsOf pair).takeWhile fun b => s.source.clears pair b.1.ratio) ↔
      b ∈ s.bucketsOf pair ∧ s.source.clears pair b.1.ratio = true := by
  rw [walk_eq_filter, List.mem_filter]

/-- The pairs that the flags stand for. -/
def flagged (s : Store) : List Pair := ((PairIndex.ofStore s).decode? s.pairFlags).getD []

namespace Filed

variable {s : Store} {w : Swap} {height : Nat} {config : Config}

/-- **What a walk finds**: the limit swaps of its pair whose bucket clears, which may run, and whose
target the pools exceed. -/
theorem mem_discover_iff (hf : s.Filed) (hw : s.swap? w.key = some w) {pair : Pair} :
    (∃ c ∈ s.discover pair height config, c.swap = w) ↔
      w.isLimit = true ∧ w.pair = pair ∧
        s.source.clears pair (LimitKey.ofSwap w).ratio = true ∧
        s.isReady w height config = true ∧ s.source.fills w = true := by
  simp only [discover, List.mem_flatMap, List.mem_map, List.mem_filterMap]
  constructor
  · rintro ⟨_, ⟨b, hb, v, ⟨k, hk, hadmit⟩, rfl⟩, rfl⟩
    obtain ⟨hfind, hready⟩ := Option.filter_eq_some_iff.mp hadmit
    obtain ⟨hb, hclears⟩ := mem_walk_iff.mp hb
    rw [bucketsOf, List.mem_filter, Bool.and_eq_true, decide_eq_true_eq] at hb
    rw [← find?_of_mem_limits hb.1] at hk
    obtain ⟨v', hv', hlimit, hplace⟩ := hf.entry hk
    obtain rfl : v = v' := Option.some.inj (hfind.symm.trans hv')
    rw [Bool.and_eq_true] at hready
    rw [← hplace] at hclears
    refine ⟨hlimit, ?_, hclears, hready⟩
    rw [← hb.2.1, ← hplace]
    rfl
  · rintro ⟨hlimit, rfl, hclears, hready, hfills⟩
    have hk := hf.placed _ _ hw hlimit
    rw [bucket] at hk
    cases hswaps : s.limits.find? (.ofSwap w) with
    | none => rw [hswaps] at hk; cases hk
    | some swaps =>
        rw [hswaps] at hk
        have hentry := OrderedMap.find?_eq_some_iff.mp hswaps
        refine ⟨.ofSwap w, ⟨(.ofSwap w, swaps), mem_walk_iff.mpr ⟨?_, hclears⟩, w,
          ⟨w.key, hk, ?_⟩, rfl⟩, rfl⟩
        · refine List.mem_filter.mpr ⟨hentry, ?_⟩
          rw [Bool.and_eq_true]
          exact ⟨decide_eq_true rfl, decide_eq_true (Ratio.value_of_le _ _)⟩
        · exact Option.filter_eq_some_iff.mpr ⟨hw, by rw [hready, hfills]; rfl⟩

end Filed

end Store

/-! ### The candidates -/

namespace SwapQueue

/-- The block does not rest, and the swap is among its candidates. -/
def Considers (q : SwapQueue) (s : Store) (height : Nat) (w : Swap) : Prop :=
  rests q.config height = false ∧ ∃ c ∈ q.candidates s height, c.swap = w

instance (q : SwapQueue) (s : Store) (height : Nat) (w : Swap) :
    Decidable (q.Considers s height w) :=
  inferInstanceAs (Decidable (_ ∧ ∃ c ∈ q.candidates s height, c.swap = w))

variable {q : SwapQueue} {s : Store} {w : Swap} {height : Nat} {config : Config}

/-- A swap is considered with the fresh ones, if it is one of them and may run. -/
theorem considered_addFresh (hf : s.Filed) (hw : s.swap? w.key = some w) (fresh : List SwapKey)
    {cs : List Candidate} (hcs : ∀ c ∈ cs, ∃ k, s.swap? k = some c.swap) :
    (∃ c ∈ addFresh s height config fresh cs, c.swap = w) ↔
      (∃ c ∈ cs, c.swap = w) ∨ w.key ∈ fresh ∧ s.isReady w height config = true := by
  induction fresh generalizing cs with
  | nil => exact ⟨.inl, fun h => h.resolve_right fun h => List.not_mem_nil h.1⟩
  | cons k fresh ih =>
      have hready : ∀ c, readyAt? s height config k = some c ↔
          ∃ v, c = .ofSwap v ∧ s.swap? k = some v ∧ s.isReady v height config = true := by
        intro c
        simp only [readyAt?, Option.map_eq_some_iff, Option.filter_eq_some_iff]
        exact exists_congr fun v => and_comm.trans (and_congr_left' eq_comm)
      have hadded : ∀ c ∈ addFresh s height config [k] cs, ∃ k, s.swap? k = some c.swap := by
        intro c hc
        rw [addFresh_singleton] at hc
        split at hc
        · exact hcs c hc
        · rcases List.mem_append.mp hc with hc | hc
          · exact hcs c hc
          · obtain ⟨v, rfl, hv, -⟩ := (hready c).mp (Option.mem_toList.mp hc)
            exact ⟨k, hv⟩
      have hone : (∃ c ∈ addFresh s height config [k] cs, c.swap = w) ↔
          (∃ c ∈ cs, c.swap = w) ∨ w.key = k ∧ s.isReady w height config = true := by
        rw [addFresh_singleton]
        split
        · rename_i hk
          refine ⟨.inl, fun h => h.elim id ?_⟩
          rintro ⟨rfl, -⟩
          -- what is there under the key of `w` is `w`
          obtain ⟨c, hc, hkey⟩ := List.mem_map.mp hk
          obtain ⟨k, hk⟩ := hcs c hc
          rw [← hf.key hk, hkey, hw] at hk
          exact ⟨c, hc, (Option.some.inj hk).symm⟩
        · constructor
          · rintro ⟨c, hc, rfl⟩
            rcases List.mem_append.mp hc with hc | hc
            · exact .inl ⟨c, hc, rfl⟩
            · obtain ⟨v, rfl, hv, hrun⟩ := (hready c).mp (Option.mem_toList.mp hc)
              exact .inr ⟨hf.key hv, hrun⟩
          · rintro (⟨c, hc, rfl⟩ | ⟨rfl, hrun⟩)
            · exact ⟨c, List.mem_append_left _ hc, rfl⟩
            · refine ⟨.ofSwap w, List.mem_append_right _ (Option.mem_toList.mpr ?_), rfl⟩
              exact (hready _).mpr ⟨w, rfl, hw, hrun⟩
      rw [addFresh_cons, ih hadded, hone, List.mem_cons, or_and_right, or_assoc]

/-- The market swaps that may run, and what the walks of the flagged pairs find. -/
theorem considered_fetch (hf : s.Filed) (hw : s.swap? w.key = some w) :
    (∃ c ∈ s.fetch s.flagged height config, c.swap = w) ↔
      s.isReady w height config = true ∧
        (w.isLimit = false ∨
          w.isLimit = true ∧ w.pair ∈ s.flagged ∧
            s.source.clears w.pair (LimitKey.ofSwap w).ratio = true ∧ s.source.fills w = true) := by
  have hmarkets : (∃ c ∈ s.markets height config, c.swap = w) ↔
      w.isLimit = false ∧ s.isReady w height config = true := by
    simp only [Store.markets, List.mem_map, List.mem_filter, Bool.and_eq_true, Bool.not_eq_true']
    constructor
    · rintro ⟨_, ⟨v, ⟨-, hv⟩, rfl⟩, rfl⟩
      exact hv
    · exact fun h => ⟨.ofSwap w, ⟨w, ⟨OrderedMap.mem_values_of_find? hw, h⟩, rfl⟩, rfl⟩
  have hwalks : (∃ c ∈ s.flagged.flatMap fun pair => s.discover pair height config, c.swap = w) ↔
      ∃ pair ∈ s.flagged, ∃ c ∈ s.discover pair height config, c.swap = w := by
    simp only [List.mem_flatMap]
    constructor
    · rintro ⟨c, ⟨pair, hpair, hc⟩, hcw⟩
      exact ⟨pair, hpair, c, hc, hcw⟩
    · rintro ⟨pair, hpair, c, hc, hcw⟩
      exact ⟨c, ⟨pair, hpair, hc⟩, hcw⟩
  simp only [Store.fetch, List.mem_append, or_and_right, exists_or, hmarkets, hwalks,
    hf.mem_discover_iff hw]
  constructor
  · rintro (⟨hmarket, hready⟩ | ⟨pair, hpair, hlimit, rfl, hclears, hready, hfills⟩)
    · exact ⟨hready, .inl hmarket⟩
    · exact ⟨hready, .inr ⟨hlimit, hpair, hclears, hfills⟩⟩
  · rintro ⟨hready, hmarket | ⟨hlimit, hpair, hclears, hfills⟩⟩
    · exact .inl ⟨hmarket, hready⟩
    · exact .inr ⟨w.pair, hpair, hlimit, rfl, hclears, hready, hfills⟩

/-- Only queued swaps are considered. -/
theorem Considers.queued (hf : s.Filed) (h : q.Considers s height w) :
    s.swap? w.key = some w := by
  obtain ⟨-, c, hc, rfl⟩ := h
  obtain ⟨k, hk⟩ := q.queued_candidates height c hc
  rw [hf.key hk]
  exact hk

/-- **When a block considers a queued swap.** -/
theorem considers_iff (hr : rests q.config height = false) (hf : s.Filed)
    (hw : s.swap? w.key = some w) :
    q.Considers s height w ↔
      s.isReady w height q.config = true ∧
        (w.isLimit = false ∨ w.key ∈ q.fresh ∨
          w.isLimit = true ∧ w.pair ∈ s.flagged ∧
            s.source.clears w.pair (LimitKey.ofSwap w).ratio = true ∧ s.source.fills w = true) := by
  have hqueued : ∀ c ∈ s.fetch s.flagged height q.config, ∃ k, s.swap? k = some c.swap :=
    queued_candidates ⟨q.config, []⟩ height
  show rests q.config height = false ∧
    (∃ c ∈ addFresh s height q.config q.fresh (s.fetch s.flagged height q.config),
      c.swap = w) ↔ _
  rw [and_iff_right hr, considered_addFresh hf hw q.fresh hqueued, considered_fetch hf hw]
  constructor
  · rintro (⟨hready, hfound | hfound⟩ | ⟨hfresh, hready⟩)
    · exact ⟨hready, .inl hfound⟩
    · exact ⟨hready, .inr (.inr hfound)⟩
    · exact ⟨hready, .inr (.inl hfresh)⟩
  · rintro ⟨hready, hfound | hfresh | hfound⟩
    · exact .inl ⟨hready, .inl hfound⟩
    · exact .inr ⟨hfresh, hready⟩
    · exact .inl ⟨hready, .inr hfound⟩

end SwapQueue

end PoolExchange
