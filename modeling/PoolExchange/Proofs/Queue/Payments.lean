import PoolExchange.Proofs.Queue.Outcome

/-!
# Queue — the payments of a block

A block pays: it refunds, it pays out, and it hands the affiliates their shares.  Each payment is
reported by one event, and each belongs to one entry of the journal (`Entry.payment?`).  While the
handler is *confined* — it changes pools and supplies only, and reports trades only
(`Handler.Confined`) — **the payments that a block reports are those of its entries, in their
order** (`SwapQueue.payments_endBlock`).
-/

namespace PoolExchange

/-! ### Confined handlers -/

/-- The event reports a leg of a trade. -/
def Event.isTrade : Event → Bool
  | .swap .. => true
  | _ => false

namespace Store

/-- Pools and supplies have been stored, and nothing else has been done. -/
inductive Adjusts (s : Store) : Store → Prop
  | refl : Adjusts s s
  | setPool {s' : Store} (init : Adjusts s s') (p : Pool) : Adjusts s (s'.setPool p)
  | setSupply {s' : Store} (init : Adjusts s s') (asset : Asset) (supply : Amount) :
      Adjusts s (s'.setSupply asset supply)

namespace Adjusts

variable {s s' : Store}

theorem setPools (h : s.Adjusts s') (ps : List Pool) : s.Adjusts (s'.setPools ps) := by
  induction ps generalizing s' with
  | nil => exact h
  | cons p ps ih => exact ih (h.setPool p)

theorem settleSupply (h : s.Adjusts s') (o : Order) (emit : Amount) :
    s.Adjusts (o.settleSupply emit s') := by
  rw [Order.settleSupply]
  split <;> split
  · exact (h.setSupply _ _).setSupply _ _
  · exact h.setSupply _ _
  · exact h.setSupply _ _
  · exact h

theorem keyed (h : s.Adjusts s') (hs : s.Keyed) : s'.Keyed := by
  induction h with
  | refl => exact hs
  | setPool _ p ih => exact ih.setPool p
  | setSupply _ asset supply ih => exact ih.setSupply asset supply

theorem sameBook (h : s.Adjusts s') : s.SameBook s' := by
  induction h with
  | refl => exact .refl s
  | setPool _ p ih => exact ih.trans (.setPool _ p)
  | setSupply _ asset supply ih => exact ih.trans (.setSupply _ asset supply)

end Adjusts

end Store

variable {σ : Type} {h : Handler σ}

/-- The handler touches pools and supplies only, and reports trades only.  What it answers, and
whether it has traded then, is its own affair. -/
structure Handler.Confined (h : Handler σ) : Prop where
  adjusts : ∀ (config : Config) (o : Order) (state : σ) (l : Ledger),
    l.store.Adjusts (h.run config o state l).1.2.store
  trades : ∀ (config : Config) (o : Order) (state : σ) (l : Ledger),
    ∃ es, (h.run config o state l).1.2.events = l.events ++ es ∧ ∀ e ∈ es, e.isTrade = true

namespace Handler.Confined

theorem keepsKeys (hc : h.Confined) : h.KeepsKeys :=
  fun config o state l hs => (hc.adjusts config o state l).keyed hs

theorem keepsBook (hc : h.Confined) : h.KeepsBook :=
  fun config o state l => (hc.adjusts config o state l).sameBook

/-- An order reports no payment. -/
theorem payments_run (hc : h.Confined) (config : Config) (o : Order) (state : σ) (l : Ledger) :
    (h.run config o state l).1.2.events.filter Event.isPayment =
      l.events.filter Event.isPayment := by
  obtain ⟨es, hes, htrades⟩ := hc.trades config o state l
  have hnone : es.filter Event.isPayment = [] := by
    refine List.filter_eq_nil_iff.mpr fun e he => ?_
    have ht := htrades e he
    cases e with
    | swap => exact Bool.false_ne_true
    | _ => exact absurd ht Bool.false_ne_true
  rw [hes, List.filter_append, hnone, List.append_nil]

end Handler.Confined

theorem Handler.pools_confined : Handler.pools.Confined where
  adjusts config o _ l := by
    simp only [Handler.pools, Order.run]
    split
    · rename_i l' fill ho
      split at ho
      · cases ho
      · split at ho
        · cases ho
        · rename_i route _
          obtain ⟨rfl, -⟩ := Prod.mk.inj (Except.ok.inj ho)
          exact (Store.Adjusts.refl.setPools route.pools).settleSupply o route.emit
    · exact .refl
  trades config o _ l := by
    rcases pools_cases config o l with ⟨l', fill, hrun, hout⟩ | ⟨e, -, hout⟩ <;> rw [hout]
    · obtain ⟨legs, hlegs⟩ := Order.events_of_run hrun
      refine ⟨_, hlegs, fun e he => ?_⟩
      obtain ⟨leg, -, rfl⟩ := List.mem_map.mp he
      rfl
    · exact ⟨[], (List.append_nil _).symm, fun e he => absurd he List.not_mem_nil⟩

/-! ### What an entry reports -/

/-- The payment that an entry reports.  A share that was sold is paid as what it sold for. -/
def Entry.payment? (config : Config) (e : Entry) : Option Event :=
  match e.effect with
  | .refund _ coin reason => some (Payout.refundEvent e.before e.swap.tx coin reason config)
  | .outbound coin =>
    some (Payout.outboundEvent e.before e.swap.tx e.swap.destination coin config)
  | .share coin => e.swap.affiliate.map fun a => .affiliateFee e.swap.tx a.address coin
  | .order .share o (.ok fill) => some (.affiliateFee e.swap.tx o.destination fill.emit)
  | _ => none

/-! ### Along a block -/

namespace Journal

variable {config : Config} {E : List Event} {w : Swap} {j : Journal σ}

/-- The payments reported are `E`, and then those of the entries. -/
def Pays (config : Config) (E : List Event) (j : Journal σ) : Prop :=
  j.run.ledger.events.filter Event.isPayment = E ++ j.log.filterMap (Entry.payment? config)

namespace Pays

/-- An entry with what it reports. -/
theorem note (hj : j.Pays config E) {effect : Effect} {r : BlockRun σ}
    (hr : r.ledger.events.filter Event.isPayment =
      j.run.ledger.events.filter Event.isPayment ++
        (Entry.payment? config ⟨w, j.run.ledger.store, effect⟩).toList) :
    (j.note w effect r).Pays config E := by
  have hlast : ∀ e : Entry, [e].filterMap (Entry.payment? config) =
      (Entry.payment? config e).toList := fun e => by
    cases he : Entry.payment? config e with
    | none => rw [List.filterMap_cons_none he]; rfl
    | some event => rw [List.filterMap_cons_some he]; rfl
  show r.ledger.events.filter Event.isPayment = _
  rw [hr, hj, Journal.note, List.filterMap_append, hlast, List.append_assoc]

/-- An entry that reports no payment. -/
theorem quiet (hj : j.Pays config E) {effect : Effect} {r : BlockRun σ}
    (hr : r.ledger.events.filter Event.isPayment = j.run.ledger.events.filter Event.isPayment)
    (heffect : Entry.payment? config ⟨w, j.run.ledger.store, effect⟩ = none) :
    (j.note w effect r).Pays config E :=
  hj.note (by rw [hr, heffect, Option.toList_none, List.append_nil])

/-- A reported event that is a payment. -/
theorem reports (hj : j.Pays config E) {effect : Effect} {r : BlockRun σ} {event : Event}
    (hr : r.ledger.events = j.run.ledger.events ++ [event]) (hpays : event.isPayment = true)
    (heffect : Entry.payment? config ⟨w, j.run.ledger.store, effect⟩ = some event) :
    (j.note w effect r).Pays config E :=
  hj.note (by
    rw [hr, List.filter_append, heffect, List.filter_cons_of_pos hpays, List.filter_nil]
    rfl)

theorem part (hc : h.Confined) (hj : j.Pays config E) (o : Order) :
    (j.call h config w .part o).1.Pays config E :=
  hj.quiet (hc.payments_run config o j.run.handler j.run.ledger) rfl

theorem refund (hj : j.Pays config E) (role : Role) (coin : Coin) (reason : String) :
    (j.refund w role coin reason config).Pays config E :=
  hj.reports (Ledger.events_refund ..) (Payout.isPayment_refundEvent ..) rfl

theorem pay (hj : j.Pays config E) (coin : Coin) : (j.pay w coin config).Pays config E :=
  hj.reports (Ledger.events_outbound ..) (Payout.isPayment_outboundEvent ..) rfl

theorem drop (hj : j.Pays config E) : (j.drop w).Pays config E := hj.quiet rfl rfl

theorem retain (hj : j.Pays config E) : (j.retain w).Pays config E := hj.quiet rfl rfl

/-- Counting in the report reports no event. -/
theorem withReport (hj : j.Pays config E) (report : BlockReport) :
    ({ j with run.report := report } : Journal σ).Pays config E := hj

theorem giveBack (hj : j.Pays config E) (e : OrderError) :
    (j.giveBack w e config).Pays config E :=
  ((hj.refund .part w.source e.message).withReport _).drop

theorem releaseAffiliate (hc : h.Confined) (hj : j.Pays config E) :
    (j.releaseAffiliate h config w).Pays config E := by
  rw [Journal.releaseAffiliate]
  cases ha : w.affiliate with
  | none => exact hj
  | some a =>
      dsimp only
      split
      · exact hj
      · split
        · refine hj.reports rfl rfl ?_
          rw [Entry.payment?, ha]
          rfl
        · obtain ⟨o, ho⟩ : ∃ o, o = BlockRun.affiliateOrder w a
            ⟨w.source.asset, w.affiliateAmount⟩ := ⟨_, rfl⟩
          have hquiet := hc.payments_run config o j.run.handler j.run.ledger
          rw [← ho]
          simp only [Journal.call, BlockRun.call]
          cases hanswer : (h.run config o j.run.handler j.run.ledger).2 with
          | error e => exact (hj.quiet (r := ⟨_, _, _⟩) hquiet rfl).refund _ _ _
          | ok fill =>
              refine hj.note ?_
              show ((h.run config o j.run.handler j.run.ledger).1.2.events ++ [_]).filter
                Event.isPayment = _
              rw [List.filter_append, hquiet, ho]
              rfl

theorem settleStream (hj : j.Pays config E) (p : SwapStream) :
    (j.settleStream config w p).Pays config E := by
  rw [Journal.settleStream]
  -- the end of a stream is reported, and is no payment
  have hend : ∀ {j : Journal σ}, j.Pays config E →
      ({ j with run := j.run.emit (BlockRun.streamEvent w p) } : Journal σ).Pays config E := by
    intro j hj
    show (_ ++ [_]).filter Event.isPayment = _
    rw [List.filter_append, hj]
    exact List.append_nil _
  refine (hend ?_).drop
  have hpaid : (if p.output.isZero then j
      else j.pay w ⟨w.target, p.output⟩ config).Pays config E := by
    split
    · exact hj
    · exact hj.pay _
  split
  · exact hpaid
  · exact hpaid.refund _ _ _

theorem storeProgress (hj : j.Pays config E) (p : SwapStream) :
    (j.storeProgress config w p).Pays config E := by
  rw [Journal.storeProgress]
  split
  · exact hj.settleStream p
  · exact hj.quiet rfl rfl

theorem executeSingle (hc : h.Confined) (hj : j.Pays config E) :
    (j.executeSingle h config w).1.Pays config E := by
  have hcall := hj.part (w := w) hc (BlockRun.orderOf w w.primaryAmount w.tradeTarget)
  rw [Journal.executeSingle]
  split <;> rename_i hout <;> rw [hout] at hcall
  · exact ((hcall.releaseAffiliate hc).pay _).drop
  · split
    · exact hcall.retain
    · exact hcall.giveBack _

theorem executeSlice (hc : h.Confined) (hj : j.Pays config E) (height : Nat) :
    (j.executeSlice h config height w).1.Pays config E := by
  simp only [Journal.executeSlice]
  split
  · exact hj.settleStream _
  · rename_i size target _
    have hcall := hj.part (w := w) hc (BlockRun.orderOf w size target)
    split <;> rename_i hout <;> rw [hout] at hcall
    · refine storeProgress ?_ _
      split
      · exact hcall.releaseAffiliate hc
      · exact hcall
    · split
      · exact hcall.retain
      · split
        · exact hcall.giveBack _
        · exact (hcall.withReport _).storeProgress _

/-- **Running a swap reports its payments.** -/
theorem step (hc : h.Confined) (height : Nat) (index : PairIndex) (w : Swap)
    {acc : Journal σ × List Pair} (hj : acc.1.Pays config E) :
    (Journal.step h config height index acc w).1.Pays config E := by
  have hrun : (acc.1.execute h config height w).1.Pays config E := by
    rw [Journal.execute]
    split
    · exact hj.executeSlice hc height
    · exact hj.executeSingle hc
  rw [Journal.step]
  split
  · exact hrun
  · exact hrun

end Pays

end Journal

/-- **The payments that a block reports are those of its entries, in their order.** -/
theorem SwapQueue.payments_endBlock (hc : h.Confined) (q : SwapQueue) (height : Nat) (state : σ)
    (l : Ledger) :
    (endBlock h q height state l).2.ledger.events.filter Event.isPayment =
      l.events.filter Event.isPayment ++
        (q.journal h height state l).filterMap (Entry.payment? q.config) := by
  rw [journal]
  cases hr : rests q.config height with
  | true =>
      rw [endBlock, if_pos hr, if_pos rfl]
      exact (List.append_nil _).symm
  | false =>
      have hfold : ∀ (ws : List Swap) (acc : Journal σ × List Pair),
          acc.1.Pays q.config (l.events.filter Event.isPayment) →
          (ws.foldl (Journal.step h q.config height (PairIndex.ofStore l.store)) acc).1.Pays
            q.config (l.events.filter Event.isPayment) := by
        intro ws
        induction ws with
        | nil => exact fun _ hj => hj
        | cons w ws ih => exact fun acc hj => ih _ (hj.step hc height _ w)
      have hrun : (q.runBlock h height state l).1.Pays q.config
          (l.events.filter Event.isPayment) := hfold _ _ (List.append_nil _).symm
      rw [ledger_endBlock h q height state l hr, if_neg Bool.false_ne_true]
      exact hrun

end PoolExchange
