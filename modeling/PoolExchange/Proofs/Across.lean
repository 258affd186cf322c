import PoolExchange.Proofs.Flow
import PoolExchange.Proofs.Store.Snapshot

/-!
# Across — a trade without a native side is two trades

A trade between two assets that are not native is priced as one route of two legs.  **It is the sale
of the source for native, followed by the purchase of the target with what the sale paid**
(`Handler.pools_across`): one succeeds exactly when both halves do, with the same emission, fees and
reports, and the store is the same but for cached synthetic units.

The two do not run the same steps.  The route passes the pool of its first leg on to the second
without storing it, changes the supplies after both legs, and refuses an empty emission where the
sale alone would.  No leg reads the cached units (`Leg.trade_withoutSynths`), so the second leg of
the route is the purchase up to these (`Route.secondLeg_withoutSynths`).
-/

namespace PoolExchange

/-! ### Up to cached units -/

/-- The leg without the cached units of the pool it leaves. -/
def Leg.withoutSynths (leg : Leg) : Leg := { leg with pool := leg.pool.withoutSynths }

/-- **A leg does not read the cached units of its pool**, and keeps them. -/
theorem Leg.trade_withoutSynths (pool : Pool) (source target : Asset) (amount : Amount)
    (config : Config) :
    trade pool.withoutSynths source target amount config =
      (trade pool source target amount config).map withoutSynths := by
  have hpriced : pricedDepths pool.withoutSynths source target config =
      pricedDepths pool source target config := rfl
  have hsettle (emit : Amount) : settle pool.withoutSynths source target amount emit =
      (settle pool source target amount emit).withoutSynths := by
    simp only [settle]
    split <;> rfl
  have hvalue (emit fee : Amount) :
      (settle pool source target amount emit).withoutSynths.assetInNative fee =
        (settle pool source target amount emit).assetInNative fee := rfl
  simp only [trade, hpriced, hsettle, hvalue, apply_ite (Except.map withoutSynths)]
  rfl

theorem Leg.emit_of_alike {leg leg' : Leg} (h : leg.withoutSynths = leg'.withoutSynths) :
    leg.emit = leg'.emit :=
  (Leg.ext_iff.mp h).2.2.2.2.1

namespace Store

theorem withoutSynths_setPool (s : Store) (p : Pool) :
    (s.setPool p).withoutSynths = s.withoutSynths.setPool p.withoutSynths := by
  simp only [withoutSynths, setPool, OrderedMap.mapValues_insert]
  rfl

end Store

/-- The ledger without the cached units of its pools. -/
def Ledger.withoutSynths (l : Ledger) : Ledger := l.withStore l.store.withoutSynths

/-! ### Routes -/

namespace Route

variable {pools : PoolSource} {source target : Asset} {amount : Amount} {config : Config}
  {route : Route}

/-- Without a trade target the legs decide, as long as they pay something. -/
theorem find_free_eq_ok : find pools source target amount 0 config = .ok route ↔
    source ≠ target ∧ ∃ legs, trace pools source target amount config = .ok legs ∧
      (ofLegs legs).emit.isZero = false ∧ route = ofLegs legs := by
  have hfree (a : Amount) : (0 : Amount) ≤ a := Nat.zero_le _
  simp only [find_eq_ok, hfree, true_and]

/-- A sale is a first leg. -/
theorem find_sale (hs : source.isNative = false) :
    find pools source .native amount 0 config = .ok route ↔
      ∃ leg, firstLeg pools source amount config = .ok leg ∧ route = ofLegs [leg] := by
  have hne : source ≠ .native := fun e => by
    rw [e] at hs
    cases hs
  have hn : Asset.native.isNative = true := rfl
  simp only [find_free_eq_ok, trace, hn, if_true, bind_eq_ok, pure_eq_ok, firstLeg_eq_ok]
  constructor
  · rintro ⟨-, legs, ⟨pool, hload, leg, htrade, rfl⟩, hemit, rfl⟩
    exact ⟨leg, ⟨⟨pool, hload, htrade⟩, hemit⟩, rfl⟩
  · rintro ⟨leg, ⟨⟨pool, hload, htrade⟩, hemit⟩, rfl⟩
    exact ⟨hne, _, ⟨pool, hload, leg, htrade, rfl⟩, hemit, rfl⟩

/-- The one leg of a purchase. -/
def purchaseLeg (pools : PoolSource) (target : Asset) (amount : Amount) (config : Config) :
    Except PoolError Leg := do
  Leg.trade (← pools.load target) .native target amount config

theorem find_purchase (ht : target.isNative = false) :
    find pools .native target amount 0 config = .ok route ↔
      ∃ leg, purchaseLeg pools target amount config = .ok leg ∧ leg.emit.isZero = false ∧
        route = ofLegs [leg] := by
  have hne : Asset.native ≠ target := fun e => by
    rw [← e] at ht
    cases ht
  have hn : Asset.native.isNative = true := rfl
  simp only [find_free_eq_ok, trace, purchaseLeg, hn, ht, if_true, Bool.false_eq_true, if_false,
    bind_eq_ok, pure_eq_ok]
  constructor
  · rintro ⟨-, legs, ⟨pool, hload, leg, htrade, rfl⟩, hemit, rfl⟩
    exact ⟨leg, ⟨pool, hload, htrade⟩, hemit, rfl⟩
  · rintro ⟨leg, ⟨pool, hload, htrade⟩, hemit, rfl⟩
    exact ⟨hne, _, ⟨pool, hload, leg, htrade, rfl⟩, hemit, rfl⟩

/-- The second of two legs. -/
def secondLeg (pools : PoolSource) (first : Leg) (target : Asset) (config : Config) :
    Except PoolError Leg := do
  Leg.trade (← secondPool pools first target) .native target first.emit config

theorem trace_across (hs : source.isNative = false) (ht : target.isNative = false) :
    trace pools source target amount config = (do
      let first ← firstLeg pools source amount config
      return [first, ← secondLeg pools first target config]) := by
  simp only [trace, hs, ht, Bool.false_eq_true, if_false, secondLeg, secondPool]
  refine bind_congr fun first => ?_
  split <;> simp

theorem find_across (hs : source.isNative = false) (ht : target.isNative = false)
    (hne : source ≠ target) :
    find pools source target amount 0 config = .ok route ↔
      ∃ first second, firstLeg pools source amount config = .ok first ∧
        secondLeg pools first target config = .ok second ∧ second.emit.isZero = false ∧
        route = ofLegs [first, second] := by
  simp only [find_free_eq_ok, trace_across hs ht, bind_eq_ok, pure_eq_ok]
  constructor
  · rintro ⟨-, legs, ⟨first, hfirst, second, hsecond, rfl⟩, hemit, rfl⟩
    exact ⟨first, second, hfirst, hsecond, hemit, rfl⟩
  · rintro ⟨first, second, hfirst, hsecond, hemit, rfl⟩
    exact ⟨hne, _, ⟨first, hfirst, second, hsecond, rfl⟩, hemit, rfl⟩

/-- The second pool is the pool of the purchase, up to cached units. -/
theorem secondPool_withoutSynths {s s₁ : Store} {first : Leg}
    (h : s₁.pools = (s.setPool first.pool).pools) (target : Asset) :
    (secondPool s.source first target).map Pool.withoutSynths =
      (s₁.source.load target).map Pool.withoutSynths := by
  have hload (s : Store) : (s.source.load target).map Pool.withoutSynths =
      (s.source.findPool target).map Pool.withoutSynths := by
    simp only [PoolSource.load]
    cases s.source.findPool target <;> rfl
  have hfound : s₁.source.pool? target = (s.setPool first.pool).pool? target :=
    congrArg (OrderedMap.find? · target.layer1) h
  rw [hload, PoolSource.findPool, hfound, Store.pool?_setPool]
  by_cases hsame : first.pool.asset = target.layer1
  · rw [secondPool, if_pos hsame, if_pos hsame.symm]
    rfl
  · rw [secondPool, if_neg hsame, if_neg fun e => hsame e.symm, hload]
    rfl

/-- **The second leg is the purchase**, up to cached units, in every store with the pools that the
sale leaves. -/
theorem secondLeg_withoutSynths {s s₁ : Store} {first : Leg}
    (h : s₁.pools = (s.setPool first.pool).pools) (target : Asset) (config : Config) :
    (secondLeg s.source first target config).map Leg.withoutSynths =
      (purchaseLeg s₁.source target first.emit config).map Leg.withoutSynths := by
  have hforget (pool? : Except PoolError Pool) :
      (pool? >>= fun pool => Leg.trade pool .native target first.emit config).map
          Leg.withoutSynths =
        pool?.map Pool.withoutSynths >>= fun pool =>
          Leg.trade pool .native target first.emit config := by
    cases pool? with
    | error e => rfl
    | ok pool => exact (Leg.trade_withoutSynths pool _ _ _ _).symm
  rw [secondLeg, purchaseLeg, hforget, hforget, secondPool_withoutSynths h]

end Route

/-! ### Orders -/

/-- What two trades in a row paid. -/
def Fill.followedBy (f g : Fill) : Fill where
  emit := g.emit
  feeInNative := f.feeInNative + g.feeInNative
  slip := f.slip + g.slip

namespace Order

/-- The sale of the source for native, at any price. -/
def toNative (o : Order) : Order := { o with target := .native, tradeTarget := 0 }

/-- The purchase of the target with `paid` of native, at any price. -/
def fromNative (o : Order) (paid : Amount) : Order :=
  { o with source := ⟨.native, paid⟩, tradeTarget := 0 }

variable {o : Order} {config : Config} {l l' : Ledger} {fill : Fill}

/-- Supplies that are minted and then burned are those that are burned and then minted, because
two synthetic assets that differ have supplies of their own. -/
theorem settleSupply_halves (hne : o.source.asset ≠ o.target) (emit paid : Amount) (s : Store) :
    (o.fromNative paid).settleSupply emit (o.toNative.settleSupply paid s) =
      o.settleSupply emit s := by
  have hn : Asset.native.isSynthetic = false := rfl
  simp only [settleSupply, fromNative, toNative, hn, Bool.false_eq_true, if_false]
  by_cases hsource : o.source.asset.isSynthetic = true
  · by_cases htarget : o.target.isSynthetic = true
    · have hkey : o.source.asset.layer1 ≠ o.target.layer1 := fun e => by
        simp only [Asset.isSynthetic, beq_iff_eq] at hsource htarget
        obtain ⟨hchain, hsymbol, -⟩ := Asset.ext_iff.mp e
        exact hne (Asset.ext hchain hsymbol (hsource.trans htarget.symm))
      simp only [if_pos hsource, if_pos htarget, Store.supply_setSupply, if_neg hkey,
        if_neg hkey.symm]
      simp only [Store.setSupply, OrderedMap.insert_comm _ hkey]
    · simp only [if_pos hsource, if_neg htarget]
  · simp only [if_neg hsource]

theorem settleSupply_setPool (emit : Amount) (s : Store) (p : Pool) :
    (o.settleSupply emit s).setPool p = o.settleSupply emit (s.setPool p) := by
  simp only [settleSupply]
  split <;> split <;> rfl

theorem settleSupply_withoutSynths (emit : Amount) (s : Store) :
    (o.settleSupply emit s).withoutSynths = o.settleSupply emit s.withoutSynths := by
  simp only [settleSupply]
  split <;> split <;> rfl

/-- **A route of two legs leaves the ledger that its legs leave one after the other.** -/
theorem settled_halves {first second second' : Leg}
    (hroute : Route.find l.store.source o.source.asset o.target o.source.amount o.tradeTarget
      config = .ok (.ofLegs [first, second]))
    (hsecond : second'.withoutSynths = second.withoutSynths) :
    ((o.fromNative first.emit).settled (.ofLegs [second'])
        (o.toNative.settled (.ofLegs [first]) l)).withoutSynths =
      (o.settled (.ofLegs [first, second]) l).withoutSynths := by
  obtain ⟨hne, htraced, -, -⟩ := Route.find_inv hroute
  obtain ⟨hpool, hsource, htarget, hinput, hemit, hfee, hnative, hslip, -⟩ :=
    Leg.ext_iff.mp hsecond
  simp only [Leg.withoutSynths] at hpool hsource htarget hinput hemit hfee hnative hslip
  have hpools : l.store.setPools (Route.ofLegs [first, second]).pools =
      (l.store.setPool first.pool).setPool second.pool :=
    Route.setPools_pools l.store htraced
  have hevent : (o.fromNative first.emit).legEvent second' = o.legEvent second := by
    have hasset : second'.pool.asset = second.pool.asset := (Pool.ext_iff.mp hpool).1
    simp only [legEvent, fromNative, hasset, hsource, htarget, hinput, hemit, hfee, hnative, hslip]
  refine Ledger.ext ?_ ?_
  · show ((o.fromNative first.emit).settleSupply second'.emit
        ((o.toNative.settleSupply first.emit (l.store.setPool first.pool)).setPool
          second'.pool)).withoutSynths =
      (o.settleSupply second.emit
        (l.store.setPools (Route.ofLegs [first, second]).pools)).withoutSynths
    rw [hpools, settleSupply_setPool, settleSupply_halves hne, settleSupply_withoutSynths,
      settleSupply_withoutSynths, Store.withoutSynths_setPool,
      Store.withoutSynths_setPool _ second.pool, hpool, hemit]
  · show (l.events ++ [o.legEvent first]) ++ [(o.fromNative first.emit).legEvent second'] =
      l.events ++ [o.legEvent first, o.legEvent second]
    rw [hevent, List.append_assoc]
    rfl

theorem fillBy_halves {first second second' : Leg}
    (hsecond : second'.withoutSynths = second.withoutSynths) :
    (o.toNative.fillBy (.ofLegs [first])).followedBy
        ((o.fromNative first.emit).fillBy (.ofLegs [second'])) =
      o.fillBy (.ofLegs [first, second]) := by
  obtain ⟨-, -, -, -, hemit, -, hnative, hslip, -⟩ := Leg.ext_iff.mp hsecond
  simp only [Leg.withoutSynths] at hemit hnative hslip
  simp only [fillBy, Fill.followedBy, Route.ofLegs, Amount.sum, List.map_cons, List.map_nil,
    List.foldl_cons, List.foldl_nil, List.getLast?_cons_cons, List.getLast?_singleton,
    Option.map_some, Option.getD_some, Amount.zero_add, hemit, hnative, hslip, fromNative]

theorem validate_fromNative (h : o.validate = .ok ()) {paid : Amount}
    (hpaid : paid.isZero = false) : (o.fromNative paid).validate = .ok () := by
  simp only [validate, guard_eq_ok, Bool.not_eq_true] at h ⊢
  exact ⟨hpaid, h.2⟩

/-- **An order across native is its two halves.** -/
theorem run_across (hs : o.source.asset.isNative = false) (ht : o.target.isNative = false)
    (hne : o.source.asset ≠ o.target) (hfree : o.tradeTarget = 0) {m : Ledger} :
    (∃ l', o.run config l = .ok (l', fill) ∧ l'.withoutSynths = m) ↔
      ∃ l₁ sold l₂ bought, o.toNative.run config l = .ok (l₁, sold) ∧
        (o.fromNative sold.emit.amount).run config l₁ = .ok (l₂, bought) ∧
        l₂.withoutSynths = m ∧ fill = sold.followedBy bought := by
  have hpools (first : Leg) : (o.toNative.settled (.ofLegs [first]) l).store.pools =
      (l.store.setPool first.pool).pools := settleSupply_pools _ _ _
  constructor
  · rintro ⟨l', hrun, rfl⟩
    obtain ⟨hvalid, route, hroute, rfl, rfl⟩ := run_eq_ok.mp hrun
    have hlegs := hroute
    rw [hfree, Route.find_across hs ht hne] at hlegs
    obtain ⟨first, second, hfirst, hbought, hemit, rfl⟩ := hlegs
    -- what the route bought with its second leg, the purchase buys in the store after the sale
    obtain ⟨second', hbought', hsecond⟩ :=
      exists_ok_of_map_eq (Route.secondLeg_withoutSynths (hpools first) o.target config) hbought
    have hemit' : second'.emit.isZero = false := by rwa [Leg.emit_of_alike hsecond]
    have hsale : o.toNative.run config l =
        .ok (o.toNative.settled (.ofLegs [first]) l, o.toNative.fillBy (.ofLegs [first])) :=
      run_eq_ok.mpr ⟨hvalid, _, (Route.find_sale hs).mpr ⟨first, hfirst, rfl⟩, rfl, rfl⟩
    have hpurchase := run_eq_ok.mpr
      ⟨validate_fromNative hvalid (Route.firstLeg_eq_ok.mp hfirst).2, _,
        (Route.find_purchase ht).mpr ⟨second', hbought', hemit', rfl⟩, rfl, rfl⟩
    exact ⟨_, _, _, _, hsale, hpurchase, settled_halves hroute hsecond,
      (fillBy_halves hsecond).symm⟩
  · rintro ⟨l₁, sold, l₂, bought, hsale, hpurchase, rfl, rfl⟩
    obtain ⟨hvalid, sale, hfind, rfl, rfl⟩ := run_eq_ok.mp hsale
    obtain ⟨first, hfirst, rfl⟩ := (Route.find_sale hs).mp hfind
    obtain ⟨-, purchase, hfind', rfl, rfl⟩ := run_eq_ok.mp hpurchase
    obtain ⟨second', hbought', hemit', rfl⟩ := (Route.find_purchase ht).mp hfind'
    obtain ⟨second, hbought, hsecond⟩ := exists_ok_of_map_eq
      (Route.secondLeg_withoutSynths (hpools first) o.target config).symm hbought'
    have hemit : second.emit.isZero = false := by rwa [Leg.emit_of_alike hsecond]
    have hroute : Route.find l.store.source o.source.asset o.target o.source.amount o.tradeTarget
        config = .ok (.ofLegs [first, second]) := by
      rw [hfree, Route.find_across hs ht hne]
      exact ⟨first, second, hfirst, hbought, hemit, rfl⟩
    exact ⟨_, run_eq_ok.mpr ⟨hvalid, _, hroute, rfl, fillBy_halves hsecond.symm⟩,
      (settled_halves hroute hsecond.symm).symm⟩

end Order

namespace Handler

theorem pools_eq_ok {config : Config} {o : Order} {l l' : Ledger} {fill : Fill} :
    pools.run config o () l = (((), l'), .ok fill) ↔ o.run config l = .ok (l', fill) := by
  rcases pools_cases config o l with ⟨l₁, fill₁, hrun, h⟩ | ⟨e, hrun, h⟩
  · simp only [h, hrun, Prod.mk.injEq, true_and, Except.ok.injEq]
  · simp [h, hrun]

/-- **A trade without a native side is the sale of its source followed by the purchase of its
target with what the sale paid.**  It succeeds exactly when both do, pays what the purchase pays for
the fees of both, reports what they report, and leaves what they leave, up to cached synthetic
units. -/
theorem pools_across {o : Order} {config : Config} {l m : Ledger} {fill : Fill}
    (hs : o.source.asset.isNative = false) (ht : o.target.isNative = false)
    (hne : o.source.asset ≠ o.target) (hfree : o.tradeTarget = 0) :
    (∃ l', pools.run config o () l = (((), l'), .ok fill) ∧ l'.withoutSynths = m) ↔
      ∃ l₁ sold l₂ bought, pools.run config o.toNative () l = (((), l₁), .ok sold) ∧
        pools.run config (o.fromNative sold.emit.amount) () l₁ = (((), l₂), .ok bought) ∧
        l₂.withoutSynths = m ∧ fill = sold.followedBy bought := by
  simp only [pools_eq_ok]
  exact o.run_across hs ht hne hfree

/-- Both halves meet one pool, with claims outstanding on it. -/
theorem pools_across_redemption :
    let l : Ledger := ⟨(Store.empty.setPool Leg.evenPool).setSupply Leg.evenPool.asset 300, []⟩
    let config := Leg.scaledConfig 20000
    let fill : Fill := ⟨⟨redemption.target, 82⟩, 12, 1410⟩
    redemption.source.asset.isNative = false ∧ redemption.target.isNative = false ∧
      redemption.source.asset ≠ redemption.target ∧ redemption.tradeTarget = 0 ∧
      ∃ l' l₁ sold l₂ bought, pools.run config redemption () l = (((), l'), .ok fill) ∧
        pools.run config redemption.toNative () l = (((), l₁), .ok sold) ∧
        pools.run config (redemption.fromNative sold.emit.amount) () l₁ =
          (((), l₂), .ok bought) ∧
        l₂.withoutSynths = l'.withoutSynths ∧ fill = sold.followedBy bought := by
  intro l config fill
  have hpaid : (pools.run config redemption () l).2 = .ok fill := by decide +kernel
  have hrun : pools.run config redemption () l =
      (((), (pools.run config redemption () l).1.2), .ok fill) := by rw [← hpaid]
  obtain ⟨l₁, sold, l₂, bought, hsale, hpurchase, hsame, hfill⟩ :=
    (pools_across (by decide) (by decide) (by decide) rfl).mp ⟨_, hrun, rfl⟩
  exact ⟨by decide, by decide, by decide, rfl, _, l₁, sold, l₂, bought, hrun, hsale, hpurchase,
    hsame, hfill⟩

end Handler

end PoolExchange
