import PoolExchange.Proofs.Queue.Effects

/-!
# Queue — what running a swap can come to

Orders, refunds and payments are *calm* (`BlockRun.Calm`): they change pools and supplies and
report events, but touch neither the queue nor its index nor the streams, and no event of theirs is
the report of a stream's end.  So a swap that runs comes to one of four ends (`BlockRun.Ran`): it
waits, it leaves the queue, its stream is settled and it leaves the queue, or its stream goes on.
What an attempt makes of the progress of a stream is a `SwapStream.Turn`: a slice that sold for at
least its part of the trade target, or a slot that is used up.
-/

namespace PoolExchange

/-- The event reports that a stream ended. -/
def Event.endsStream : Event → Bool
  | .streamingSwap .. => true
  | _ => false

/-- A payment is no end of a stream. -/
theorem Event.filter_endsStream {event : Event} (h : event.isPayment = true) :
    [event].filter endsStream = [] := by
  cases event with
  | streamingSwap => exact absurd h Bool.false_ne_true
  | _ => rfl

/-! ### Orders answer their target -/

/-- A trade that is priced emits at least its target. -/
theorem Route.tradeTarget_le_of_find {pools : PoolSource} {source target : Asset}
    {amount tradeTarget : Amount} {config : Config} {route : Route}
    (h : find pools source target amount tradeTarget config = .ok route) :
    tradeTarget ≤ route.emit := by
  obtain ⟨-, legs, -, hpaid, -, rfl⟩ := find_eq_ok.mp h
  exact hpaid

namespace Order

variable {o : Order} {config : Config} {l l' : Ledger} {fill : Fill}

/-- **An order that is filled emits at least its target.** -/
theorem tradeTarget_le_of_run (h : o.run config l = .ok (l', fill)) :
    o.tradeTarget ≤ fill.emit.amount := by
  obtain ⟨-, route, hroute, -, rfl⟩ := run_eq_ok.mp h
  exact Route.tradeTarget_le_of_find hroute

/-- An order reports its legs. -/
theorem events_of_run (h : o.run config l = .ok (l', fill)) :
    ∃ legs : List Leg, l'.events = l.events ++ legs.map o.legEvent := by
  obtain ⟨-, route, -, rfl, -⟩ := run_eq_ok.mp h
  exact ⟨route.legs, rfl⟩

end Order

/-! ### Turns of a stream -/

/-- Only a stream that is open has a slice to sell. -/
theorem SwapStream.isDone_of_nextSize {p : SwapStream} (h : p.nextSize.1.toNat ≠ 0) :
    p.isDone = false := by
  rw [Bool.eq_false_iff]
  intro hd
  refine h ?_
  simp [nextSize, hd]

/-- What one attempt makes of the progress of a stream. -/
inductive SwapStream.Turn (p : SwapStream) (height : Nat) : SwapStream → Prop
  /-- The slice sold for at least its part of the target. -/
  | sold (output : Amount) (isOpen : p.isDone = false) (enough : p.nextSize.2 ≤ output) :
      Turn p height (BlockRun.recorded p height p.nextSize.1 output)
  | failed (reason : String) : Turn p height (p.recordFailure height reason)

namespace SwapStream.Turn

variable {p p' : SwapStream} {height : Nat}

theorem tx (t : p.Turn height p') : p'.tx = p.tx := by
  cases t with
  | sold output => exact Journal.tx_recorded p height _ output
  | failed reason => rfl

/-- Every attempt uses up a slot. -/
theorem count (t : p.Turn height p') : p'.count = p.count + 1 := by
  cases t with
  | sold output isOpen =>
      simp only [BlockRun.recorded, recordSwap, isOpen, Bool.false_eq_true, if_false]
  | failed reason => rfl

end SwapStream.Turn

namespace BlockRun

/-! ### Calm operations -/

/-- From `r` to `r'` the queue, its index and the streams stay as they are, no stream is reported
to end, and no swap is counted as fetched or retained. -/
structure Calm (r r' : BlockRun Unit) : Prop where
  book : r.ledger.store.SameBook r'.ledger.store
  ends : r'.ledger.events.filter Event.endsStream = r.ledger.events.filter Event.endsStream
  fetched : r'.report.fetched = r.report.fetched
  retained : r'.report.retained = r.report.retained

namespace Calm

variable {r r' r'' : BlockRun Unit}

theorem refl (r : BlockRun Unit) : Calm r r := ⟨.refl _, rfl, rfl, rfl⟩

theorem trans (c : Calm r r') (c' : Calm r' r'') : Calm r r'' where
  book := c.book.trans c'.book
  ends := c'.ends.trans c.ends
  fetched := c'.fetched.trans c.fetched
  retained := c'.retained.trans c.retained

/-- An event other than the end of a stream. -/
theorem emit (r : BlockRun Unit) {event : Event} (h : event.endsStream = false) :
    Calm r (r.emit event) := by
  refine ⟨.refl _, ?_, rfl, rfl⟩
  show (r.ledger.events ++ [event]).filter Event.endsStream = _
  simp [h]

theorem refund (r : BlockRun Unit) (swap : Swap) (coin : Coin) (reason : String)
    (config : Config) : Calm r (r.refund swap coin reason config) := by
  refine ⟨?_, ?_, rfl, rfl⟩
  · rw [store_refund]
    exact Payout.settled_sameBook r.ledger.store coin config
  · show ((r.ledger.refund swap.tx coin reason config).1.events).filter _ = _
    rw [Ledger.events_refund, List.filter_append,
      Event.filter_endsStream (Payout.isPayment_refundEvent ..), List.append_nil]

theorem pay (r : BlockRun Unit) (swap : Swap) (coin : Coin) (config : Config) :
    Calm r (r.pay swap coin config) := by
  refine ⟨?_, ?_, rfl, rfl⟩
  · rw [store_pay]
    exact Payout.settled_sameBook r.ledger.store coin config
  · show ((r.ledger.outbound swap.tx swap.destination coin config).1.events).filter _ = _
    rw [Ledger.events_outbound, List.filter_append,
      Event.filter_endsStream (Payout.isPayment_outboundEvent ..), List.append_nil]

end Calm

/-- **Running an order is calm.**  One that is filled sells something, for at least its target. -/
theorem call_pools (config : Config) (o : Order) (r : BlockRun Unit) :
    ∃ r₁, Calm r r₁ ∧
      ((∃ fill, r.call .pools config o = (r₁, .ok fill) ∧ o.source.amount.toNat ≠ 0 ∧
          o.tradeTarget ≤ fill.emit.amount) ∨
        ∃ e, r.call .pools config o = (r₁, .error e)) := by
  simp only [call]
  rcases Handler.pools_cases config o r.ledger with ⟨l', fill, hrun, hout⟩ | ⟨e, -, hout⟩
  · obtain ⟨-, -, -, -, -, -, hpos⟩ := Order.run_inv hrun
    obtain ⟨legs, hlegs⟩ := Order.events_of_run hrun
    refine ⟨{ r with ledger := l' }, ⟨Order.run_sameBook hrun, ?_, rfl, rfl⟩, .inl ⟨fill, ?_, hpos,
      Order.tradeTarget_le_of_run hrun⟩⟩
    · show l'.events.filter _ = _
      have hnone : (legs.map o.legEvent).filter Event.endsStream = [] := by
        refine List.filter_eq_nil_iff.mpr fun event hevent => ?_
        obtain ⟨leg, -, rfl⟩ := List.mem_map.mp hevent
        exact Bool.false_ne_true
      rw [hlegs, List.filter_append, hnone, List.append_nil]
    · rw [hout]
  · exact ⟨r, .refl r, .inr ⟨e, by rw [hout]⟩⟩

/-- Releasing the share is calm. -/
theorem Calm.releaseAffiliate (config : Config) (swap : Swap) (r : BlockRun Unit) :
    Calm r (r.releaseAffiliate .pools config swap) := by
  rw [BlockRun.releaseAffiliate]
  cases swap.affiliate with
  | none => exact .refl r
  | some affiliate =>
      dsimp only
      split
      · exact .refl r
      · split
        · exact .emit r rfl
        · obtain ⟨r₁, hcalm, ⟨fill, hcall, -⟩ | ⟨e, hcall⟩⟩ := call_pools config
            (affiliateOrder swap affiliate ⟨swap.source.asset, swap.affiliateAmount⟩) r <;>
            rw [hcall]
          · exact hcalm.trans (.emit r₁ rfl)
          · exact hcalm.trans (.refund r₁ swap _ _ config)

/-! ### The ends of a run -/

/-- What running `w` can come to. -/
inductive Ran (height : Nat) (w : Swap) (r : BlockRun Unit) : BlockRun Unit → Prop
  /-- A limit swap that misses its price. -/
  | waits {r₁ : BlockRun Unit} (calm : Calm r r₁) : Ran height w r r₁.retain
  /-- It has been filled, or its source has been given back. -/
  | leaves {r₁ : BlockRun Unit} (calm : Calm r r₁) : Ran height w r (r₁.drop w)
  /-- Its stream was complete on entry, or has been completed. -/
  | settles {r₁ : BlockRun Unit} {p : SwapStream} (streaming : w.isStreaming = true)
      (calm : Calm r r₁) (turn : p = r.ledger.store.progress w ∨
        (r.ledger.store.progress w).Turn height p) :
      Ran height w r ((r₁.emit (streamEvent w p)).drop w)
  | goesOn {r₁ : BlockRun Unit} {p : SwapStream} (streaming : w.isStreaming = true)
      (calm : Calm r r₁) (turn : (r.ledger.store.progress w).Turn height p)
      (isOpen : p.isDone = false) :
      Ran height w r
        { r₁ with ledger := r₁.ledger.withStore (r₁.ledger.store.setStream p) }

variable {r r₁ : BlockRun Unit} {w : Swap} {height : Nat} {p : SwapStream} (config : Config)

theorem Ran.giveBack (calm : Calm r r₁) (reason : OrderError) :
    Ran height w r (r₁.giveBack w reason config) := by
  have hrefund := Calm.refund r₁ w w.source reason.message config
  exact .leaves (calm.trans ⟨hrefund.book, hrefund.ends, hrefund.fetched, hrefund.retained⟩)

theorem Ran.settleStream (streaming : w.isStreaming = true) (calm : Calm r r₁)
    (turn : p = r.ledger.store.progress w ∨ (r.ledger.store.progress w).Turn height p) :
    Ran height w r (r₁.settleStream config w p) := by
  have hpaid : ∀ r₂ : BlockRun Unit, Calm r₁ r₂ →
      Ran height w r ((r₂.emit (streamEvent w p)).drop w) :=
    fun r₂ c => .settles streaming (calm.trans c) turn
  rw [BlockRun.settleStream]
  split
  · split
    · exact hpaid _ (.refl r₁)
    · exact hpaid _ (.pay r₁ w _ config)
  · split
    · exact hpaid _ (.refund r₁ w _ _ config)
    · exact hpaid _ ((Calm.pay r₁ w _ config).trans (.refund _ w _ _ config))

theorem Ran.storeProgress (streaming : w.isStreaming = true) (calm : Calm r r₁)
    (turn : (r.ledger.store.progress w).Turn height p) :
    Ran height w r (r₁.storeProgress config w p) := by
  rw [BlockRun.storeProgress]
  split
  · exact .settleStream config streaming calm (.inr turn)
  · rename_i hopen
    exact .goesOn streaming calm turn (Bool.eq_false_iff.mpr hopen)

theorem ran_executeSingle (w : Swap) (r : BlockRun Unit) :
    Ran height w r (r.executeSingle .pools config w).1 := by
  rw [executeSingle]
  obtain ⟨r₁, hcalm, ⟨fill, hcall, -⟩ | ⟨e, hcall⟩⟩ :=
    call_pools config (orderOf w w.primaryAmount w.tradeTarget) r <;> rw [hcall]
  · exact .leaves ((hcalm.trans (.releaseAffiliate config w r₁)).trans (.pay _ w _ config))
  · dsimp only
    split
    · exact .waits hcalm
    · exact .giveBack config hcalm e

theorem ran_executeSlice (streaming : w.isStreaming = true) (r : BlockRun Unit) :
    Ran height w r (r.executeSlice .pools config height w).1 := by
  rw [executeSlice]
  dsimp only
  cases hslice : (r.ledger.store.progress w).nextSlice with
  | error e => exact .settleStream config streaming (.refl r) (.inl rfl)
  | ok slice =>
      -- a slice that can be sold is the next one
      obtain rfl : slice = (r.ledger.store.progress w).nextSize := by
        rw [SwapStream.nextSlice, guard_eq_ok] at hslice
        exact (Except.ok.inj hslice.2).symm
      dsimp only
      obtain ⟨r₁, hcalm, ⟨fill, hcall, hpos, henough⟩ | ⟨e, hcall⟩⟩ := call_pools config
        (orderOf w (r.ledger.store.progress w).nextSize.1
          (r.ledger.store.progress w).nextSize.2) r <;> rw [hcall] <;> dsimp only
      · have hturn : (r.ledger.store.progress w).Turn height _ :=
          .sold fill.emit.amount (SwapStream.isDone_of_nextSize hpos) henough
        split
        · exact .storeProgress config streaming (hcalm.trans (.releaseAffiliate config w r₁)) hturn
        · exact .storeProgress config streaming hcalm hturn
      · split
        · exact .waits hcalm
        · split
          · exact .giveBack config hcalm e
          · exact .storeProgress config streaming
              (hcalm.trans ⟨.refl _, rfl, rfl, rfl⟩) (.failed e.message)

/-- Running a swap fetches none. -/
theorem Ran.fetched {r' : BlockRun Unit} (ran : Ran height w r r') :
    r'.report.fetched = r.report.fetched := by
  cases ran with
  | waits calm => exact calm.fetched
  | leaves calm => exact calm.fetched
  | settles _ calm _ => exact calm.fetched
  | goesOn _ calm _ _ => exact calm.fetched

/-- **Running a swap comes to one of the four ends.** -/
theorem ran_execute (height : Nat) (w : Swap) (r : BlockRun Unit) :
    Ran height w r (r.execute .pools config height w).1 := by
  rw [execute]
  split
  · rename_i hs
    exact ran_executeSlice config hs r
  · exact ran_executeSingle config w r

end BlockRun

end PoolExchange
