import PoolExchange.Proofs.Exchange.Account
import PoolExchange.Proofs.Queue.Price

/-!
# Exchange — every swap gets the price it asks for

Deposits, withdrawals and changes of pools touch neither the queue nor the streams, and report no
stream to end (`sameBook_act`, `ends_act`); a swap that is accepted is one more for the invariant
of `PoolExchange.Proofs.Queue.Price` (`Ledger.Guarded.enter`).  So along every run in which no two
offers share a transaction, whatever happens to the pools between the blocks, a swap that is sold
at once emits its trade target, and a stream that ends with its deposit sold has collected its
trade target (`price_protected`).
-/

namespace PoolExchange

/-! ### One more accepted swap -/

/-- `v` is `w` as it is queued: the number of its slices has been fixed, if it is streaming. -/
def Swap.IsQueuedFor (v w : Swap) : Prop :=
  v = { w with streamQuantity := v.streamQuantity } ∧ (w.isStreaming = false → v = w)

theorem Event.Honours.mono {A B : List Swap} (h : A ⊆ B) {e : Event} (he : e.Honours A) :
    e.Honours B := by
  cases e with
  | streamingSwap tx source target interval quantity count deposit input output failed =>
      intro hsold hdeposit
      obtain ⟨w, hw, hprotected⟩ := he hsold hdeposit
      exact ⟨w, h hw, hprotected⟩
  | _ => trivial

section Enter

variable {A : List Swap} {w : Swap}

theorem Admitted.snoc (hA : Admitted A) (hnew : ∀ v ∈ A, v.tx ≠ w.tx)
    (hslices : w.isStreaming = true → w.streamQuantity < Amount.bound) : Admitted (A ++ [w]) where
  distinct := by
    rw [List.map_append, List.nodup_append]
    refine ⟨hA.distinct, List.nodup_singleton _, ?_⟩
    intro tx htx tx' htx' he
    obtain ⟨v, hv, rfl⟩ := List.mem_map.mp htx
    exact hnew v hv (he.trans (List.mem_singleton.mp htx'))
  slices v hv hs := by
    rcases List.mem_append.mp hv with hv | hv
    · exact hA.slices v hv hs
    · obtain rfl := List.mem_singleton.mp hv
      exact hslices hs

/-- **A swap of a new transaction enters.**  Its stream is new, and those of the others stay. -/
theorem Ledger.Guarded.enter {l : Ledger} (h : l.Guarded A) (hnew : ∀ v ∈ A, v.tx ≠ w.tx)
    (hslices : w.isStreaming = true → w.streamQuantity < Amount.bound) :
    (l.withStore (SwapQueue.enter l.store w)).Guarded (A ++ [w]) where
  queued k v hv := by
    have hv : (SwapQueue.enter l.store w).swap? k = some v := hv
    rw [SwapQueue.swap?_enter] at hv
    split at hv
    · rw [← Option.some.inj hv]
      exact List.mem_append_right A List.mem_cons_self
    · exact List.mem_append_left _ (h.queued k v hv)
  stream v hv hs p hp := by
    have hp : (SwapQueue.enter l.store w).stream? v.tx = some p := hp
    rw [SwapQueue.stream?_enter] at hp
    rcases List.mem_append.mp hv with hv | hv
    · rw [if_neg fun e => hnew v hv e.2] at hp
      exact h.stream v hv hs p hp
    · obtain rfl := List.mem_singleton.mp hv
      rw [if_pos ⟨hs, rfl⟩] at hp
      rw [← Option.some.inj hp]
      exact SwapStream.serves_ofSwap (hslices hs)
  ends e he := (h.ends e he).mono (List.subset_append_left A [w])

end Enter

/-! ### Other actions -/

namespace Exchange

/-- Only offers and blocks change the queue, its index or the streams. -/
theorem sameBook_act (x : Exchange) {a : Action} (haccept : ∀ w, a ≠ .accept w)
    (hblock : ∀ height, a ≠ .endBlock height) : x.store.SameBook (x.act a).store := by
  cases a with
  | deposit asset owner d =>
      rcases x.store_deposit_cases asset owner d with h | ⟨o, -, -, -, h⟩ <;> rw [h]
      · exact .refl _
      · exact ⟨rfl, rfl, rfl⟩
  | withdraw asset owner w config =>
      rcases x.store_withdraw_cases asset owner w config with h | ⟨_, _, o, -, -, -, h⟩ <;> rw [h]
      · exact .refl _
      · exact ⟨rfl, rfl, rfl⟩
  | setStatus asset status =>
      rcases x.store_setStatus_cases asset status with h | ⟨pool, -, h⟩ <;> rw [h]
      · exact .refl _
      · exact .setPool _ _
  | setSupply asset supply => exact .setSupply _ asset supply
  | setPool pool => exact .setPool _ pool
  | accept w => exact absurd rfl (haccept w)
  | endBlock height => exact absurd rfl (hblock height)

/-- Only blocks report streams to end. -/
theorem ends_act (x : Exchange) {a : Action} (hblock : ∀ height, a ≠ .endBlock height) :
    (x.act a).ledger.events.filter Event.endsStream =
      x.ledger.events.filter Event.endsStream := by
  cases a with
  | deposit asset owner d =>
      simp only [act]
      split
      · rename_i l o ho
        simp only [Ledger.deposit, guard_eq_ok, bind_eq_ok, pure_eq_ok, Prod.mk.injEq] at ho
        obtain ⟨-, o', -, rfl, -⟩ := ho
        have hquiet : (Ledger.depositEvent owner d o').endsStream = false := by
          rw [Ledger.depositEvent]
          split <;> rfl
        simp [Ledger.emit, Ledger.withStore, hquiet]
      · rfl
  | withdraw asset owner w config =>
      simp only [act]
      split
      · rename_i l o ho
        simp only [Ledger.withdraw, bind_eq_ok, pure_eq_ok, Prod.mk.injEq] at ho
        obtain ⟨pool, -, provider, -, o', -, rfl, -⟩ := ho
        have hquiet : (Ledger.statusEvents pool.asset pool.status o'.pool.status).filter
            Event.endsStream = [] := by
          rw [Ledger.statusEvents]
          split <;> rfl
        simp [Ledger.emitAll, Ledger.withStore, hquiet, Event.endsStream]
      · rfl
  | setStatus asset status =>
      simp only [act]
      split
      · rename_i l o ho
        simp only [Ledger.setStatus, bind_eq_ok, guard_eq_ok] at ho
        obtain ⟨pool, -, -, ho⟩ := ho
        split at ho
        · rw [← (Prod.mk.inj (pure_eq_ok.mp ho)).1]
        · rw [← (Prod.mk.inj (pure_eq_ok.mp ho)).1]
          have hquiet : (Ledger.statusEvents pool.asset pool.status status).filter
              Event.endsStream = [] := by
            rw [Ledger.statusEvents]
            split <;> rfl
          simp [Ledger.emitAll, Ledger.withStore, hquiet]
      · rfl
  | setSupply | setPool => rfl
  | accept w =>
      simp only [act]
      split <;> rfl
  | endBlock height => exact absurd rfl (hblock height)

/-! ### Along a run -/

/-- The swaps that are offered in a run. -/
def offers (actions : List Action) : List Swap :=
  actions.filterMap fun a =>
    match a with
    | .accept w => some w
    | _ => none

variable {A : List Swap}

/-- **Every action keeps the invariant**, with the swap that it puts into the queue, if any. -/
theorem guarded_act {x : Exchange} (hA : Admitted A) (h : x.ledger.Guarded A) (a : Action)
    (hnew : ∀ w ∈ offers [a], ∀ v ∈ A, v.tx ≠ w.tx) :
    ∃ B, Admitted (A ++ B) ∧ (x.act a).ledger.Guarded (A ++ B) ∧
      ∀ v ∈ B, ∃ w ∈ offers [a], v.IsQueuedFor w := by
  have hquiet : (∀ w, a ≠ .accept w) → (∀ height, a ≠ .endBlock height) →
      ∃ B, Admitted (A ++ B) ∧ (x.act a).ledger.Guarded (A ++ B) ∧
        ∀ v ∈ B, ∃ w ∈ offers [a], v.IsQueuedFor w := by
    intro haccept hblock
    refine ⟨[], by rwa [List.append_nil], ?_, fun v hv => absurd hv List.not_mem_nil⟩
    rw [List.append_nil]
    exact h.sameBook (x.sameBook_act haccept hblock) (x.ends_act hblock)
  cases a with
  | deposit | withdraw | setStatus | setSupply | setPool =>
      exact hquiet (fun _ e => by cases e) fun _ e => by cases e
  | endBlock height =>
      refine ⟨[], by rwa [List.append_nil], ?_, fun v hv => absurd hv List.not_mem_nil⟩
      rw [List.append_nil]
      exact SwapQueue.guarded_endBlock x.queue height hA h
  | accept w =>
      simp only [act]
      split
      · rename_i q s ho
        obtain ⟨v, -, -, hprepare, -, rfl⟩ := SwapQueue.accept_inv ho
        obtain ⟨hv, hslices⟩ := SwapQueue.prepare_inv hprepare
        have hqueued : v.IsQueuedFor w := by
          refine ⟨hv, fun hs => ?_⟩
          rw [SwapQueue.prepare, hs, if_neg Bool.false_ne_true] at hprepare
          exact (Except.ok.inj hprepare).symm
        have htx : v.tx = w.tx := by rw [hv]
        have hstreaming : v.isStreaming = w.isStreaming := by rw [hv]; rfl
        have hbound : v.isStreaming = true → v.streamQuantity < Amount.bound := by
          intro hs
          exact lt_trans (hslices (hstreaming ▸ hs)) (by decide)
        have hfresh : ∀ u ∈ A, u.tx ≠ v.tx := fun u hu => htx ▸ hnew w List.mem_cons_self u hu
        refine ⟨[v], hA.snoc hfresh hbound, h.enter hfresh hbound, fun u hu => ?_⟩
        rw [List.mem_singleton.mp hu]
        exact ⟨w, List.mem_cons_self, hqueued⟩
      · refine ⟨[], by rwa [List.append_nil], ?_, fun v hv => absurd hv List.not_mem_nil⟩
        rw [List.append_nil]
        exact h

/-- **Every run keeps the invariant**, and the targets of the swaps that it sells at once. -/
theorem guarded_run {x : Exchange} (hA : Admitted A) (h : x.ledger.Guarded A)
    {actions : List Action} (hnew : ∀ w ∈ offers actions, ∀ v ∈ A, v.tx ≠ w.tx)
    (hdistinct : ((offers actions).map Swap.tx).Nodup) :
    ∃ B, (x.run actions).ledger.Guarded (A ++ B) ∧
      (∀ v ∈ B, ∃ w ∈ offers actions, v.IsQueuedFor w) ∧
      ∀ e ∈ x.journal actions, e.swap ∈ A ++ B ∧ e.KeepsTarget := by
  induction actions generalizing x A with
  | nil =>
      refine ⟨[], ?_, fun v hv => absurd hv List.not_mem_nil, fun e he => absurd he
        List.not_mem_nil⟩
      rw [List.append_nil]
      exact h
  | cons a actions ih =>
      have hoffers : offers (a :: actions) = offers [a] ++ offers actions :=
        List.filterMap_append (l := [a])
      rw [hoffers, List.map_append, List.nodup_append] at hdistinct
      obtain ⟨-, hrest, hcross⟩ := hdistinct
      obtain ⟨B, hAB, hact, hB⟩ := guarded_act hA h a fun w hw =>
        hnew w (hoffers ▸ List.mem_append_left _ hw)
      obtain ⟨C, hrun, hC, hjournal⟩ := ih hAB hact (fun w hw v hv => by
        rcases List.mem_append.mp hv with hv | hv
        · exact hnew w (hoffers ▸ List.mem_append_right _ hw) v hv
        · obtain ⟨u, hu, hqueued⟩ := hB v hv
          rw [hqueued.1]
          exact hcross _ (List.mem_map_of_mem hu) _ (List.mem_map_of_mem hw)) hrest
      rw [List.append_assoc] at hrun hjournal
      refine ⟨B ++ C, hrun, fun v hv => ?_, fun e he => ?_⟩
      · rw [hoffers]
        rcases List.mem_append.mp hv with hv | hv
        · obtain ⟨w, hw, hqueued⟩ := hB v hv
          exact ⟨w, List.mem_append_left _ hw, hqueued⟩
        · obtain ⟨w, hw, hqueued⟩ := hC v hv
          exact ⟨w, List.mem_append_right _ hw, hqueued⟩
      · rcases List.mem_append.mp he with he | he
        · have hentry : e.swap ∈ A ∧ e.KeepsTarget := by
            cases a with
            | endBlock height => exact SwapQueue.keepsTarget_journal x.queue height h e he
            | _ => exact absurd he List.not_mem_nil
          exact ⟨List.mem_append_left _ hentry.1, hentry.2⟩
        · exact hjournal e he

/-- **Every swap gets the price it asks for.**  In every run from an empty queue in which no two
offers share a transaction, whatever else happens between the blocks: an order that fills a swap
which does not stream emits the trade target of an offered swap, and a stream that ends with its
deposit sold, if it had one, has collected the trade target of the offered swap of its
transaction. -/
theorem price_protected (q : SwapQueue) {s : Store} (hqueue : s.queue = .empty)
    {actions : List Action} (hdistinct : ((offers actions).map Swap.tx).Nodup) :
    let x : Exchange := ⟨q, ⟨s, []⟩⟩
    (∀ e ∈ x.journal actions, ∀ o fill, e.effect = .order .part o (.ok fill) →
        e.swap.isStreaming = false →
        e.swap ∈ offers actions ∧ e.swap.tradeTarget ≤ fill.emit.amount) ∧
      ∀ tx source target interval quantity count deposit input output failed,
        .streamingSwap tx source target interval quantity count deposit input output failed ∈
          (x.run actions).ledger.events →
        input = deposit → deposit ≠ 0 →
        ∃ w ∈ offers actions, w.tx = tx ∧ w.isStreaming = true ∧ w.tradeTarget ≤ output := by
  intro x
  have hstart : x.ledger.Guarded [] := by
    refine ⟨fun k w hw => ?_, fun w hw => absurd hw List.not_mem_nil,
      fun e he => absurd he List.not_mem_nil⟩
    have hw : s.queue.find? k = some w := hw
    rw [hqueue, OrderedMap.find?_empty] at hw
    cases hw
  obtain ⟨B, hrun, hB, hjournal⟩ := guarded_run (A := [])
    ⟨List.nodup_nil, fun w hw => absurd hw List.not_mem_nil⟩ hstart
    (fun _ _ v hv => absurd hv List.not_mem_nil) hdistinct
  constructor
  · intro e he o fill heffect hstream
    obtain ⟨hmem, hkeeps⟩ := hjournal e he
    obtain ⟨w, hw, hqueued⟩ := hB e.swap hmem
    have hplain : w.isStreaming = false := by
      rw [hqueued.1] at hstream
      exact hstream
    exact ⟨hqueued.2 hplain ▸ hw, hkeeps o fill heffect hstream⟩
  · intro tx source target interval quantity count deposit input output failed he hsold hdeposit
    obtain ⟨v, hv, htx, hstream, hprice⟩ :=
      hrun.ends _ he hsold fun hzero => hdeposit (Amount.eq_zero_iff.mpr hzero)
    obtain ⟨w, hw, hqueued⟩ := hB v hv
    rw [hqueued.1] at htx hstream hprice
    exact ⟨w, hw, htx, hstream, hprice⟩

/-- A sale of bitcoin for at least nine tenths of the amount in native, at once or, with an
interval, in two slices. -/
def btcSale (tx : String) (interval : Nat) : Swap :=
  ⟨⟨tx⟩, 0, ⟨"bob"⟩, ⟨⟨"BTC", "BTC", .layer1⟩, 1000000000⟩, .native, ⟨"bob"⟩, 900000000, .market,
    interval, 2, none, 1⟩

/-- Between the slices of the second sale the native side of the pool doubles. -/
def btcSales : List Action :=
  [.accept (btcSale "02" 0), .endBlock 1, .accept (btcSale "03" 1), .endBlock 2,
    .setPool ⟨⟨"BTC", "BTC", .layer1⟩, 200000000000, 100000000000, 100000000000, 0, 0, 0,
      .available, 8⟩, .endBlock 3]

/-- The stream ends with its deposit sold, for more than its target. -/
theorem price_protected_btcSales :
    let s := ((empty slicing).run btcOpening).store
    let x : Exchange := ⟨⟨slicing, []⟩, ⟨s, []⟩⟩
    s.queue = .empty ∧ ((offers btcSales).map Swap.tx).Nodup ∧
      .streamingSwap ⟨"03"⟩ ⟨"BTC", "BTC", .layer1⟩ .native 1 2 2 1000000000 1000000000 1475453429
        [] ∈ (x.run btcSales).ledger.events ∧
      (∃ w ∈ offers btcSales, w.tx = ⟨"03"⟩ ∧ w.isStreaming = true ∧
        w.tradeTarget ≤ 1475453429) ∧
      ∀ e ∈ x.journal btcSales, ∀ o fill, e.effect = .order .part o (.ok fill) →
        e.swap.isStreaming = false → e.swap ∈ offers btcSales := by
  have hqueue : ((empty slicing).run btcOpening).store.queue = .empty := by decide +kernel
  have hdistinct : ((offers btcSales).map Swap.tx).Nodup := by decide
  have hprotected := price_protected ⟨slicing, []⟩ hqueue hdistinct
  refine ⟨hqueue, hdistinct, ?ends, hprotected.2 _ _ _ _ _ _ _ _ _ _ ?ends rfl (by decide),
    fun e he o fill heffect hstream => (hprotected.1 e he o fill heffect hstream).1⟩
  decide +kernel

end Exchange

end PoolExchange
