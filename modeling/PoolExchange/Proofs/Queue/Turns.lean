import PoolExchange.Proofs.Queue.Settlement

/-!
# Queue — each swap has one turn in a block

The candidates of a block come from three places: the market swaps, the walks of the flagged pairs,
and the limit swaps accepted since the last block.  A swap can be found in more than one of them,
and a walk could come to it by more than one pair or bucket.

While no pool of native itself is stored none of this makes a candidate twice, so **what a block
does for a swap is what one run of the swap does** (`Desk.one_turn`): for every confined handler,
after whatever calls, and whatever became of the pools between them (`Desk.Reachable`).
-/

namespace PoolExchange.Desk

variable {σ : Type} {h : Handler σ}

/-- What a desk can come to from an empty queue, by calls and by changes of pools and supplies. -/
inductive Reachable (h : Handler σ) : Desk σ → Prop
  | start {d : Desk σ} (keyed : d.ledger.store.Keyed) (queue : d.ledger.store.queue = .empty)
      (limits : d.ledger.store.limits = .empty) : Reachable h d
  | call {d : Desk σ} (r : Request) (reachable : Reachable h d) : Reachable h (d.serve h r)
  | outside {d : Desk σ} {s : Store} (reachable : Reachable h d)
      (adjusts : d.ledger.store.Adjusts s) :
      Reachable h { d with ledger := d.ledger.withStore s }

theorem Reachable.filed (hc : h.Confined) {d : Desk σ} (hd : d.Reachable h) :
    d.ledger.store.Filed ∧ d.ledger.store.Keyed := by
  induction hd with
  | start keyed queue limits => exact ⟨.of_empty keyed queue limits, keyed⟩
  | call r _ ih => exact filed_serve hc ih.1 ih.2 r
  | outside _ adjusts ih => exact ⟨ih.1.congr adjusts.sameBook, adjusts.keyed ih.2⟩

/-- **No swap is a candidate twice, and none runs twice.**  In whatever a desk can come to, while no
pool of native is stored, the candidates have pairwise different keys, and so have the swaps that
run.  All that a block writes down under a key is then written by one run of one of them. -/
theorem one_turn (hc : h.Confined) {d : Desk σ} (hd : d.Reachable h)
    (hforeign : d.ledger.store.pool? .native = none) (height : Nat) :
    let agenda := d.queue.agenda d.ledger.store height
    let entries := d.queue.journal h height d.handler d.ledger
    ((d.queue.candidates d.ledger.store height).map fun c => c.swap.key).Nodup ∧
      (agenda.map Swap.key).Nodup ∧
      ∀ key, Entry.ofKey key entries ≠ [] → ∃ w ∈ agenda, w.key = key ∧
        ∃ j : Journal σ, (j.execute h d.queue.config height w).1.log =
          j.log ++ Entry.ofKey key entries := by
  intro agenda entries
  obtain ⟨hfiled, hkeyed⟩ := hd.filed hc
  have hindexed : d.ledger.store.Indexed := hfiled.indexed.of_book hkeyed hforeign
  have hagenda : (agenda.map Swap.key).Nodup := d.queue.nodup_agenda height hindexed
  refine ⟨(d.queue.distinct_candidates height hindexed).nodup, hagenda, fun key hkey => ?_⟩
  obtain ⟨e, he⟩ := List.exists_mem_of_ne_nil _ hkey
  obtain ⟨hlog, hfor⟩ := List.mem_filter.mp he
  have hruns : e.swap ∈ agenda := d.queue.swap_mem_agenda height hlog
  obtain rfl : e.swap.key = key := of_decide_eq_true hfor
  have hjournal : entries = (d.queue.runBlock h height d.handler d.ledger).1.log := by
    show d.queue.journal .. = _
    rw [SwapQueue.journal, if_neg]
    -- a block that rests writes nothing down
    intro hrests
    rw [show entries = [] from if_pos hrests] at hlog
    cases hlog
  refine ⟨e.swap, hruns, rfl, ?_⟩
  rw [hjournal]
  exact SwapQueue.entries_of_nodup height d.queue.config (PairIndex.ofStore d.ledger.store) hagenda
    hruns (⟨d.queue.openBlock height d.handler d.ledger, []⟩, []) rfl

/-- A sale of bitcoin has flagged the purchase of bitcoin, and a limit swap for it has been accepted
since. -/
def besideWalk : Desk Unit :=
  btcDesk.run .pools [.accept btcDump, .endBlock 1, .accept SwapQueue.btcLimit]

/-- The walk of the flagged pair finds the swap, which is fresh as well; it is filled once. -/
theorem one_turn_walked :
    let d := besideWalk
    let entries := d.queue.journal .pools 2 d.handler d.ledger
    Handler.pools.Confined ∧ d.Reachable .pools ∧ d.ledger.store.pool? .native = none ∧
      d.queue.fresh = [SwapQueue.btcLimit.key] ∧
      (d.ledger.store.discover SwapQueue.btcLimit.pair 2 {}).map Candidate.swap =
        [SwapQueue.btcLimit] ∧
      ((d.queue.candidates d.ledger.store 2).map fun c => c.swap.key) =
        [SwapQueue.btcLimit.key] ∧
      Entry.ofKey SwapQueue.btcLimit.key entries ≠ [] ∧
      ∃ w ∈ d.queue.agenda d.ledger.store 2, w.key = SwapQueue.btcLimit.key ∧
        ∃ j : Journal Unit, (j.execute .pools d.queue.config 2 w).1.log =
          j.log ++ Entry.ofKey SwapQueue.btcLimit.key entries := by
  intro d entries
  have hreach : d.Reachable .pools :=
    ((Reachable.start (Store.Keyed.empty.setPool _) rfl rfl).call (.accept btcDump)
      |>.call (.endBlock 1)).call (.accept SwapQueue.btcLimit)
  have hforeign : d.ledger.store.pool? .native = none := by decide +kernel
  have hruns : Entry.ofKey SwapQueue.btcLimit.key entries ≠ [] := by
    rw [ne_eq, ← List.length_eq_zero_iff]
    decide +kernel
  exact ⟨Handler.pools_confined, hreach, hforeign, by decide +kernel, by decide +kernel,
    by decide +kernel, hruns, (one_turn Handler.pools_confined hreach hforeign 2).2.2 _ hruns⟩

end PoolExchange.Desk
