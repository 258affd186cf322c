import PoolExchange.Proofs.Queue.Index
import PoolExchange.Proofs.Slicing

/-!
# Queue — running one swap leaves the others alone

A swap that runs changes its own entry in the queue, its own entry in the limit index and the
stream of its own transaction (`Store.RunsFor`).  So the swaps that run after it are still there,
the index stays coherent, and what every swap of a block preserves the block preserves
(`SwapQueue.runBlock_induct`).
-/

namespace PoolExchange

/-- From `s` to `s'` nothing happened to other swaps than `w`, or to other streams than its own. -/
structure Store.RunsFor (w : Swap) (s s' : Store) : Prop where
  indexed : s'.Indexed
  own : s'.swap? w.key = some w ∨ s'.swap? w.key = none
  swap : ∀ k, k ≠ w.key → s'.swap? k = s.swap? k
  stream : ∀ tx, tx ≠ w.tx → s'.stream? tx = s.stream? tx

namespace Store.RunsFor

variable {w : Swap} {s s' s'' : Store}

theorem refl (hi : s.Indexed) (hw : s.swap? w.key = some w) : RunsFor w s s :=
  ⟨hi, .inl hw, fun _ _ => rfl, fun _ _ => rfl⟩

/-- Changes of pools and supplies are no change of this. -/
theorem sameBook (r : RunsFor w s s') (hk : s''.Keyed) (hn : s''.pools.find? .native = none)
    (hb : s'.SameBook s'') : RunsFor w s s'' := by
  have hswap : ∀ k, s''.swap? k = s'.swap? k := fun k => by rw [swap?, swap?, hb.queue]
  refine ⟨r.indexed.congr hk hn hb.queue hb.limits, ?_, fun k hne => ?_, fun tx hne => ?_⟩
  · rw [hswap]; exact r.own
  · rw [hswap]; exact r.swap k hne
  · rw [stream?, hb.streams]; exact r.stream tx hne

theorem setStream (r : RunsFor w s s') {p : SwapStream} (hp : p.tx = w.tx) :
    RunsFor w s (s'.setStream p) := by
  refine ⟨r.indexed.congr (r.indexed.keyed.setStream p) r.indexed.foreign rfl rfl, r.own, r.swap,
    fun tx hne => ?_⟩
  rw [stream?_setStream, if_neg (hp ▸ hne)]
  exact r.stream tx hne

theorem dropSwap (r : RunsFor w s s') : RunsFor w s (BlockRun.dropSwap s' w) := by
  refine ⟨r.indexed.dropSwap r.own, .inr ?_, fun k hne => ?_, fun tx hne => ?_⟩
  · rw [BlockRun.swap?_dropSwap, if_pos rfl]
  · rw [BlockRun.swap?_dropSwap, if_neg hne]; exact r.swap k hne
  · rw [BlockRun.stream?_dropSwap_of_ne s' w hne]; exact r.stream tx hne

/-- **Every effect for `w` leaves the others alone.** -/
theorem leads {config : Config} {e : Entry} (r : RunsFor w s e.before) (he : e.IsFor w w.tx)
    (hl : e.Leads .pools config s') : RunsFor w s s' := by
  have hi := r.indexed
  obtain ⟨hswap, hprogress⟩ := he
  cases hl with
  | order swap role o state l =>
      rcases Handler.pools_cases config o l with ⟨l', fill, hrun, hout⟩ | ⟨err, -, hout⟩
      · rw [hout]
        exact r.sameBook (Order.run_keyed hrun hi.keyed)
          (Order.run_find?_eq_none hrun hi.keyed hi.foreign) (Order.run_sameBook hrun)
      · rw [hout]; exact r
  | refund swap t role coin reason =>
      exact r.sameBook (Payout.keyed_settled hi.keyed coin config)
        (Payout.settled_find?_eq_none hi.keyed hi.foreign coin config)
        (Payout.settled_sameBook t coin config)
  | outbound swap t coin =>
      exact r.sameBook (Payout.keyed_settled hi.keyed coin config)
        (Payout.settled_find?_eq_none hi.keyed hi.foreign coin config)
        (Payout.settled_sameBook t coin config)
  | share swap t coin => exact r
  | progress swap t p => exact r.setStream (hprogress p rfl)
  | drop swap t =>
      obtain rfl : swap = w := hswap
      exact r.dropSwap
  | retain swap t => exact r

end Store.RunsFor

theorem Store.Keyed.tx_progress {s : Store} (hs : s.Keyed) (w : Swap) :
    (s.progress w).tx = w.tx := by
  rw [progress]
  cases hp : s.stream? w.tx with
  | none => rfl
  | some p => exact hs.stream _ p hp

namespace Journal

/-- **Running a swap leaves the others alone.** -/
theorem runsFor_execute (config : Config) {w : Swap} {j : Journal Unit} (height : Nat)
    (hi : j.run.ledger.store.Indexed) (hw : j.run.ledger.store.swap? w.key = some w) :
    Store.RunsFor w j.run.ledger.store
      (j.execute .pools config height w).1.run.ledger.store := by
  obtain ⟨es, -, hfor, ht⟩ : Grows .pools config w w.tx j (j.execute .pools config height w).1 :=
    grows_execute height (hi.keyed.tx_progress w)
  exact ht.induct (.refl hi hw) fun e he s r hl => r.leads (hfor e he) hl

end Journal

namespace SwapQueue

/-- What running each of some different queued swaps preserves, running them all preserves. -/
theorem foldl_step_induct {config : Config} {height : Nat} {index : PairIndex}
    {P : Store → List Entry → Prop}
    (step : ∀ (w : Swap) (j : Journal Unit), j.run.ledger.store.Indexed →
      j.run.ledger.store.swap? w.key = some w → P j.run.ledger.store j.log →
      P (j.execute .pools config height w).1.run.ledger.store
        (j.execute .pools config height w).1.log)
    {ws : List Swap} (hnodup : (ws.map Swap.key).Nodup) {acc : Journal Unit × List Pair}
    (hi : acc.1.run.ledger.store.Indexed)
    (hqueued : ∀ w ∈ ws, acc.1.run.ledger.store.swap? w.key = some w)
    (hP : P acc.1.run.ledger.store acc.1.log) :
    (ws.foldl (Journal.step .pools config height index) acc).1.run.ledger.store.Indexed ∧
      P (ws.foldl (Journal.step .pools config height index) acc).1.run.ledger.store
        (ws.foldl (Journal.step .pools config height index) acc).1.log := by
  induction ws generalizing acc with
  | nil => exact ⟨hi, hP⟩
  | cons w ws ih =>
      have hw := hqueued w List.mem_cons_self
      have hrun := Journal.runsFor_execute config height hi hw
      obtain ⟨hnew, hnodup⟩ := List.nodup_cons.mp hnodup
      refine ih hnodup ?_ (fun v hv => ?_) ?_
      · rw [Journal.store_step]; exact hrun.indexed
      · rw [Journal.store_step, hrun.swap v.key fun e => hnew (e ▸ List.mem_map_of_mem hv)]
        exact hqueued v (List.mem_cons_of_mem _ hv)
      · rw [Journal.store_step, Journal.log_step]; exact step w acc.1 hi hw hP

/-- **What running a queued swap preserves, a block preserves.** -/
theorem runBlock_induct (q : SwapQueue) (height : Nat) {l : Ledger} (hi : l.store.Indexed)
    {P : Store → List Entry → Prop}
    (step : ∀ (w : Swap) (j : Journal Unit), j.run.ledger.store.Indexed →
      j.run.ledger.store.swap? w.key = some w → P j.run.ledger.store j.log →
      P (j.execute .pools q.config height w).1.run.ledger.store
        (j.execute .pools q.config height w).1.log)
    (h₀ : P l.store []) :
    (q.runBlock .pools height () l).1.run.ledger.store.Indexed ∧
      P (q.runBlock .pools height () l).1.run.ledger.store
        (q.runBlock .pools height () l).1.log :=
  foldl_step_induct step (q.nodup_agenda height hi) hi (q.queued_agenda height hi) h₀

theorem indexed_endBlock (q : SwapQueue) (height : Nat) {l : Ledger} (hi : l.store.Indexed) :
    (endBlock .pools q height () l).2.ledger.store.Indexed := by
  cases hr : rests q.config height with
  | true => rw [store_endBlock_of_rests .pools q height () l hr]; exact hi
  | false =>
      rw [store_endBlock .pools q height () l hr]
      have hblock := (q.runBlock_induct (P := fun _ _ => True) height hi
        (fun _ _ _ _ _ => trivial) trivial).1
      exact hblock.congr (hblock.keyed.setPairFlags _) hblock.foreign rfl rfl

end SwapQueue

namespace SwapQueue

/-- **Inversion of a preparation.**  Only the number of slices is fixed, and it is a word. -/
theorem prepare_inv {q : SwapQueue} {s : Store} {swap w : Swap} (h : q.prepare s swap = .ok w) :
    w = { swap with streamQuantity := w.streamQuantity } ∧
      (swap.isStreaming = true → w.streamQuantity < wordBound 64) := by
  rw [prepare] at h
  split at h
  · simp only [bind_eq_ok, pure_eq_ok] at h
    obtain ⟨most, hmost, rfl⟩ := h
    refine ⟨rfl, fun _ => ?_⟩
    simp only [grantSlices]
    split
    · exact Slicing.maxQuantity_lt hmost
    · exact lt_of_le_of_lt (Nat.min_le_right _ _) (Slicing.maxQuantity_lt hmost)
  · rename_i hs
    rw [← Except.ok.inj h]
    exact ⟨rfl, fun h => absurd h hs⟩

/-- A prepared swap has the key of the swap that was offered. -/
theorem key_of_prepare {q : SwapQueue} {s : Store} {swap w : Swap} (h : q.prepare s swap = .ok w) :
    w.key = swap.key := by
  rw [(prepare_inv h).1]
  rfl

end SwapQueue

/-! ### Coherence along a run -/

/-- The action puts no pool of native in place, as the ledger makes none. -/
def Action.IsForeign (a : Action) : Prop := ∀ p, a = .setPool p → p.asset ≠ .native

namespace Store.Indexed

variable {s : Store}

theorem setPool (hi : s.Indexed) {p : Pool} (hp : p.asset ≠ .native) : (s.setPool p).Indexed := by
  refine hi.congr (hi.keyed.setPool p) ?_ rfl rfl
  rw [find?_setPool, if_neg fun e => hp e.symm]
  exact hi.foreign

theorem setProvider (hi : s.Indexed) (v : Provider) : (s.setProvider v).Indexed :=
  hi.congr (hi.keyed.setProvider v) hi.foreign rfl rfl

theorem asset_ne_native (hi : s.Indexed) {asset : Asset} {p : Pool}
    (hp : s.pool? asset = some p) : p.asset ≠ .native := by
  intro e
  have hforeign := hi.foreign
  rw [← e, hi.keyed.asset_of_pool? hp, show s.pools.find? asset.layer1 = some p from hp]
    at hforeign
  cases hforeign

end Store.Indexed

namespace Exchange

/-- **Every action keeps the index coherent.** -/
theorem indexed_act {x : Exchange} (hi : x.store.Indexed) {a : Action} (ha : a.IsForeign) :
    (x.act a).store.Indexed := by
  cases a with
  | deposit asset owner d =>
      rcases x.store_deposit_cases asset owner d with h | ⟨o, hn, hl, happly, h⟩ <;> rw [h]
      · exact hi
      · refine (hi.setPool ?_).setProvider _
        rw [(Deposit.apply_keys happly).1, Ledger.asset_poolFor hi.keyed asset, hl]
        intro e
        rw [e, Bool.eq_false_iff] at hn
        exact hn (Asset.isNative_iff.mpr rfl)
  | withdraw asset owner w config =>
      rcases x.store_withdraw_cases asset owner w config with
        h | ⟨pool, _, o, hp, -, happly, h⟩ <;> rw [h]
      · exact hi
      · refine (hi.setPool ?_).setProvider _
        rw [(Withdrawal.apply_keys happly).1]
        exact hi.asset_ne_native hp
  | setStatus asset status =>
      rcases x.store_setStatus_cases asset status with h | ⟨pool, hp, h⟩ <;> rw [h]
      · exact hi
      · exact hi.setPool (show pool.asset ≠ _ from hi.asset_ne_native hp)
  | setSupply asset supply =>
      exact hi.congr (hi.keyed.setSupply asset supply) hi.foreign rfl rfl
  | setPool pool => exact hi.setPool (ha pool rfl)
  | accept swap =>
      rcases x.store_accept_cases swap with h | ⟨w, hnew, hprepare, h⟩ <;> rw [h]
      · exact hi
      · refine hi.enter ?_
        rw [(SwapQueue.prepare_inv hprepare).1]
        exact hnew
  | endBlock height => exact SwapQueue.indexed_endBlock x.queue height hi

theorem indexed_run {x : Exchange} (hi : x.store.Indexed) {actions : List Action}
    (ha : ∀ a ∈ actions, a.IsForeign) : (x.run actions).store.Indexed := by
  induction actions generalizing x with
  | nil => exact hi
  | cons a actions ih =>
      exact ih (indexed_act hi (ha a List.mem_cons_self))
        fun b hb => ha b (List.mem_cons_of_mem _ hb)

end Exchange

end PoolExchange
