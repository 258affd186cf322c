import PoolExchange.Proofs.Queue.History
import PoolExchange.Proofs.Queue.Walk

/-!
# Queue — a walk that stops early loses nothing

A walk goes from the best key of its pair to the worst (`Store.bucketsOf_eq_range`) and stops at the
first bucket that does not clear.  Keys are in the order of their pairs and then of falling ratios,
so what lies between the two keys is of one pair (`LimitKey.between_iff`), and a bucket that does not
clear has none behind it that does.

The worst key has ratio zero and the best one the largest ratio that can be written.  An index that
was filled with such ratios keeps them through every later change (`Store.Stocked.ratio_le`), and so
**a walk of it finds what testing every bucket of the pair finds, in the same order**
(`Store.discover_eq_filter`).
-/

namespace PoolExchange

/-! ### The keys of a pair -/

namespace LimitKey

theorem compare_eq (k k' : LimitKey) :
    compare k k' = (compare k.pair k'.pair).then (compare k'.ratio.value k.ratio.value) := rfl

/-- The keys from the best of a pair to the worst are those of the pair whose ratio can be
written. -/
theorem between_iff {pair : Pair} {k : LimitKey} :
    ((compare (best pair) k).isLE = true ∧ (compare k (worst pair)).isLE = true) ↔
      k.pair = pair ∧ k.ratio.value ≤ Ratio.maxValue := by
  constructor
  · rintro ⟨hbest, hworst⟩
    rw [compare_eq] at hbest hworst
    -- the pair of the key is at most the pair, and at least
    have hpair : compare pair k.pair = .eq := by
      refine Ordering.eq_eq_of_isLE_of_isLE_swap (Ordering.isLE_left_of_isLE_then hbest) ?_
      rw [← Std.OrientedOrd.eq_swap]
      exact Ordering.isLE_left_of_isLE_then hworst
    have hratio : (compare k.ratio.value Ratio.maxValue).isLE = true := by
      rw [show (best pair).pair = pair from rfl, hpair] at hbest
      exact hbest
    exact ⟨(Std.LawfulEqOrd.eq_of_compare hpair).symm, Nat.isLE_compare.mp hratio⟩
  · rintro ⟨rfl, hratio⟩
    rw [compare_eq, compare_eq, show (best k.pair).pair = k.pair from rfl,
      show (worst k.pair).pair = k.pair from rfl, Std.compare_self]
    exact ⟨Nat.isLE_compare.mpr hratio, Nat.isLE_compare.mpr (Nat.zero_le _)⟩

end LimitKey

namespace Store

/-- The buckets from one key to another, both included. -/
def range (s : Store) (first last : LimitKey) : List (LimitKey × List SwapKey) :=
  s.limits.entries.filter fun b => (compare first b.1).isLE && (compare b.1 last).isLE

/-- The buckets of a pair are those from its best key to its worst. -/
theorem bucketsOf_eq_range (s : Store) (pair : Pair) :
    s.bucketsOf pair = s.range (.best pair) (.worst pair) := by
  refine List.filter_congr fun b _ => ?_
  rw [Bool.eq_iff_iff, Bool.and_eq_true, Bool.and_eq_true, decide_eq_true_eq, decide_eq_true_eq]
  exact LimitKey.between_iff.symm

/-! ### Filling the index -/

/-- The stores whose index was filled with ratios that can be written, from nothing and with
whatever changes elsewhere. -/
inductive Stocked : Store → Prop
  | start {s : Store} (bare : s.limits = .empty) : Stocked s
  | insertLimit {s : Store} (hs : s.Stocked) {b : LimitKey} (hb : b.ratio.value ≤ Ratio.maxValue)
      (k : SwapKey) : Stocked (s.insertLimit b k)
  | removeLimit {s : Store} (hs : s.Stocked) (b : LimitKey) (k : SwapKey) :
      Stocked (s.removeLimit b k)
  | elsewhere {s s' : Store} (hs : s.Stocked) (same : s'.limits = s.limits) : Stocked s'

/-- No ratio of the index is too large to be written. -/
theorem Stocked.ratio_le {s : Store} (hs : s.Stocked) {b : LimitKey} {ks : List SwapKey}
    (hb : s.limits.find? b = some ks) : b.ratio.value ≤ Ratio.maxValue := by
  induction hs generalizing b ks with
  | start bare =>
      rw [bare] at hb
      cases hb
  | insertLimit _ hlarge k ih =>
      exact OrderedMap.forall_insert (P := fun b _ => b.ratio.value ≤ Ratio.maxValue)
        (fun _ _ => ih) hlarge b ks hb
  | removeLimit _ b' k ih =>
      -- a bucket that keeps a swap was there before
      rw [Store.removeLimit] at hb
      split at hb
      · exact ih hb
      · rename_i swaps hfind
        dsimp only at hb
        split at hb
        · exact OrderedMap.forall_erase (P := fun b _ => b.ratio.value ≤ Ratio.maxValue)
            (fun _ _ => ih) b' b ks hb
        · exact OrderedMap.forall_insert (P := fun b _ => b.ratio.value ≤ Ratio.maxValue)
            (fun _ _ => ih) (ih hfind) b ks hb
  | elsewhere _ same ih => exact ih (same ▸ hb)

/-- A swap that enters is filed under a ratio that can be written. -/
theorem Stocked.enter {s : Store} (hs : s.Stocked) (w : Swap) : (SwapQueue.enter s w).Stocked := by
  have hqueued : (s.setSwap w).Stocked := hs.elsewhere rfl
  have hfiled : (if w.isLimit then (s.setSwap w).insertLimit (.ofSwap w) w.key
      else s.setSwap w).Stocked := by
    split
    · exact hqueued.insertLimit (Ratio.value_of_le _ _) _
    · exact hqueued
  refine hfiled.elsewhere ?_
  simp only [SwapQueue.enter]
  split <;> split <;> rfl

/-- All buckets of a pair lie between its best key and its worst. -/
theorem Stocked.range_eq {s : Store} (hs : s.Stocked) (pair : Pair) :
    s.range (.best pair) (.worst pair) = s.limits.entries.filter fun b => b.1.pair = pair := by
  rw [← bucketsOf_eq_range]
  refine List.filter_congr fun b hb => ?_
  have hratio := hs.ratio_le (OrderedMap.find?_eq_some_iff.mpr hb)
  rw [decide_eq_true hratio, Bool.and_true]

/-! ### Walks -/

/-- The queued swaps of a bucket that may run and whose target the pools exceed. -/
theorem filterMap_admit? (s : Store) (height : Nat) (config : Config) (ks : List SwapKey) :
    ks.filterMap (s.admit? height config) =
      (ks.filterMap s.swap?).filter fun w => s.isReady w height config && s.source.fills w :=
  List.filter_filterMap.symm

/-- **A walk finds what testing every bucket finds.**  It goes over the buckets of its pair and of no
other, and returns those of their swaps that are queued, may run and fill, of every bucket that
clears, in the order of the index. -/
theorem discover_eq_filter {s : Store} (hs : s.Stocked) (pair : Pair) (height : Nat)
    (config : Config) :
    s.range (.best pair) (.worst pair) = (s.limits.entries.filter fun b => b.1.pair = pair) ∧
      s.discover pair height config =
        (((s.limits.entries.filter fun b =>
              b.1.pair = pair && s.source.clears pair b.1.ratio).flatMap fun b =>
            b.2.filterMap s.swap?).filter fun w =>
          s.isReady w height config && s.source.fills w).map .ofSwap := by
  have hwalk : ((s.bucketsOf pair).takeWhile fun b => s.source.clears pair b.1.ratio) =
      s.limits.entries.filter fun b => b.1.pair = pair && s.source.clears pair b.1.ratio := by
    rw [walk_eq_filter, bucketsOf_eq_range, hs.range_eq, List.filter_filter]
    exact List.filter_congr fun b _ => Bool.and_comm _ _
  refine ⟨hs.range_eq pair, ?_⟩
  rw [discover, hwalk, ← List.map_flatMap]
  simp only [filterMap_admit?, List.filter_flatMap]

/-- A bid for bitcoin, for `wanted` of it or more. -/
def btcOffer (tx : String) (wanted : Amount) : Swap :=
  { SwapQueue.btcLimit with tx := ⟨tx⟩, tradeTarget := wanted }

/-- Three bids for bitcoin, of which the pool cannot serve the dearest, a sale of it, and a place in
the index that no swap has. -/
def btcBook : Store :=
  [btcOffer "02" 500000000, btcOffer "03" 250000000, btcOffer "04" 2000000000,
      { btcOffer "05" 1 with source := ⟨SwapQueue.btcLimit.target, 7⟩, target := .native }].foldl
    SwapQueue.enter SwapQueue.btcStore
  |>.insertLimit ⟨SwapQueue.btcLimit.pair, ⟨300000000⟩⟩ ⟨⟨"06"⟩, 0⟩

theorem discover_eq_filter_btcBook :
    let pair := SwapQueue.btcLimit.pair
    btcBook.Stocked ∧
      (btcBook.range (.best pair) (.worst pair) =
        btcBook.limits.entries.filter fun b => b.1.pair = pair) ∧
      (btcBook.range (.best pair) (.worst pair)).map (fun b => b.1.ratio.value) =
        [400000000, 300000000, 200000000, 50000000] ∧
      btcBook.discover pair 1 {} =
        [btcOffer "03" 250000000, btcOffer "02" 500000000].map .ofSwap := by
  intro pair
  have hs : btcBook.Stocked := by
    refine .insertLimit ?_ (by decide) _
    exact ((((Stocked.start rfl).enter _).enter _).enter _).enter _
  obtain ⟨hrange, hfound⟩ := discover_eq_filter hs pair 1 {}
  exact ⟨hs, hrange, by decide +kernel, hfound.trans (by decide +kernel)⟩

end Store

end PoolExchange
